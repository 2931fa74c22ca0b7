import PaperTrade.Runner.XauM30

/-!
# The indicators of `XauM30RunnerStrategy`

The RSI and the ATR divide by nothing but constants and, in the RSI, by the average loss where it is not
zero; so they never raise, and `rsiValues` and `atrValues` are what they return. An ATR is zero only where
all candles up to it stand at one price.

The M30 candles keep what holds of the M15 candles they are built of. Of M15 candles in order they are the
neighbours, joined (`m30Series_of_spaced`).
-/

namespace PaperTrade.Runner

open PaperTrade.Runtime

namespace XauM30

lemma pyDiv_of_ne {a b : ℚ} (h : b ≠ 0) : pyDiv a b = .ok (a / b) := if_neg h

@[simp] lemma length_opens (s : List ExactCandle) : (opens s).length = s.length := List.length_map _

@[simp] lemma length_highs (s : List ExactCandle) : (highs s).length = s.length := List.length_map _

@[simp] lemma length_lows (s : List ExactCandle) : (lows s).length = s.length := List.length_map _

@[simp] lemma length_closes (s : List ExactCandle) : (closes s).length = s.length := List.length_map _

@[simp] lemma length_ema (values : List ℚ) (period : ℕ) : (ema values period).length = values.length :=
  length_expAverages _ _

lemma val_map {f : ℚ → ℚ} {values : List ℚ} {i : ℕ} (hi : i < values.length) :
    val (values.map f) i = f (val values i) := by
  rw [val, val, List.getD_eq_getElem _ _ hi, List.getD_eq_getElem _ _ (by simpa using hi),
    List.getElem_map]

/-! ## RSI -/

/-- The RSI of an average gain and an average loss. -/
def rsiValue (avgGain avgLoss : ℚ) : ℚ :=
  if avgLoss = 0 then (if 0 < avgGain then 100 else 50) else 100 - 100 / (1 + avgGain / avgLoss)

lemma rsiOf_eq {g l : ℚ} (hg : 0 ≤ g) (hl : 0 ≤ l) : rsiOf g l = .ok (rsiValue g l) := by
  unfold rsiOf rsiValue
  by_cases hzero : l = 0
  · by_cases hpos : 0 < g
    · rw [if_pos ⟨hzero, hpos⟩, if_pos hzero, if_pos hpos]
    · rw [if_neg fun h => hpos h.2, if_pos hzero, if_pos hzero, if_neg hpos]
  · have hratio : 0 ≤ g / l := div_nonneg hg hl
    have hsum : 1 + g / l ≠ 0 := by positivity
    rw [if_neg fun h => hzero h.1, if_neg hzero, if_neg hzero, pyDiv_of_ne hzero]
    show (pyDiv 100 (1 + g / l) >>= fun share => pure (100 - share)) = _
    rw [pyDiv_of_ne hsum]
    rfl

lemma rsiLoop_eq {gs ls : List ℚ} (hgs : ∀ g ∈ gs, 0 ≤ g) (hls : ∀ l ∈ ls, 0 ≤ l) :
    rsiLoop gs ls = .ok (List.zipWith rsiValue gs ls) := by
  induction gs generalizing ls with
  | nil => rfl
  | cons g gs ih =>
    cases ls with
    | nil => rfl
    | cons l ls =>
      have hrest := ih (fun g hg => hgs g (List.mem_cons_of_mem _ hg))
        (fun l hl => hls l (List.mem_cons_of_mem _ hl))
      rw [rsiLoop, rsiOf_eq (hgs g List.mem_cons_self) (hls l List.mem_cons_self)]
      show (rsiLoop gs ls >>= fun rest => pure (rsiValue g l :: rest)) = _
      rw [hrest]
      rfl

lemma forall_mem_zipWith {α β γ : Type} {f : α → β → γ} {P : γ → Prop} (h : ∀ a b, P (f a b))
    (l : List α) (l' : List β) : ∀ x ∈ List.zipWith f l l', P x := by
  induction l generalizing l' with
  | nil => exact fun x hx => absurd hx (by simp)
  | cons a l ih =>
    cases l' with
    | nil => exact fun x hx => absurd hx (by simp)
    | cons b l' =>
      rw [List.zipWith_cons_cons, List.forall_mem_cons]
      exact ⟨h a b, ih l'⟩

lemma moves_nonneg (part : ℚ → ℚ) (values : List ℚ) : ∀ v ∈ moves part values, 0 ≤ v := by
  intro v hv
  rcases List.mem_cons.mp hv with rfl | hv
  · exact le_rfl
  · exact forall_mem_zipWith (P := fun v => 0 ≤ v) (fun _ _ => le_max_right _ _) _ _ v hv

/-- The averages of the gains or the losses. -/
def averages (moves : List ℚ) : List ℚ := expFrom (1 / 14) 0 moves

lemma averages_nonneg {moves : List ℚ} (h : ∀ v ∈ moves, 0 ≤ v) : ∀ a ∈ averages moves, 0 ≤ a :=
  expFrom_nonneg (by norm_num) (by norm_num) le_rfl h

/-- The values of `_rsi`. -/
def rsiValues (values : List ℚ) : List ℚ :=
  if values.length < 2 then List.replicate values.length 50
  else List.zipWith rsiValue (averages (gains values)) (averages (losses values))

lemma rsi_eq (values : List ℚ) : rsi values = .ok (rsiValues values) := by
  unfold rsi rsiValues
  split
  · rfl
  · rw [pyDiv_of_ne (by norm_num)]
    exact rsiLoop_eq (averages_nonneg (moves_nonneg _ _)) (averages_nonneg (moves_nonneg _ _))

lemma length_moves (part : ℚ → ℚ) {values : List ℚ} (h : values ≠ []) :
    (moves part values).length = values.length := by
  have hpos := List.length_pos_iff.mpr h
  rw [moves, List.length_cons, List.length_zipWith, List.length_tail]
  omega

@[simp] lemma length_rsiValues (values : List ℚ) : (rsiValues values).length = values.length := by
  unfold rsiValues
  split
  · exact List.length_replicate
  · have hne : values ≠ [] := by
      rintro rfl
      simp at *
    rw [List.length_zipWith, averages, averages, length_expFrom, length_expFrom, gains, losses,
      length_moves _ hne, length_moves _ hne, min_self]

/-! ## ATR -/

/-- The values of `_atr`. -/
def atrValues (s : List ExactCandle) : List ℚ := expAverages (1 / 14) (ranges s)

lemma atr_eq (s : List ExactCandle) : atr s = .ok (atrValues s) := by
  unfold atr
  split
  · rename_i hs
    rw [hs]
    rfl
  · rw [pyDiv_of_ne (by norm_num)]
    rfl

lemma length_ranges (s : List ExactCandle) : (ranges s).length = s.length := by
  cases s with
  | nil => rfl
  | cons c rest => simp [ranges]

@[simp] lemma length_atrValues (s : List ExactCandle) : (atrValues s).length = s.length := by
  rw [atrValues, length_expAverages, length_ranges]

lemma rangeAfter_nonneg (previous c : ExactCandle) : 0 ≤ rangeAfter previous c :=
  (abs_nonneg _).trans (le_max_right _ _)

lemma ranges_nonneg {s : List ExactCandle} (h : ∀ c ∈ s, c.WellFormed) : ∀ r ∈ ranges s, 0 ≤ r := by
  cases s with
  | nil => exact fun r hr => absurd hr List.not_mem_nil
  | cons c rest =>
    intro r hr
    rcases List.mem_cons.mp hr with rfl | hr
    · exact sub_nonneg.mpr (h c List.mem_cons_self).low_le_high
    · exact forall_mem_zipWith (P := fun r => 0 ≤ r) rangeAfter_nonneg _ _ r hr

lemma atrValues_nonneg {s : List ExactCandle} (h : ∀ c ∈ s, c.WellFormed) : ∀ a ∈ atrValues s, 0 ≤ a :=
  expAverages_nonneg (by norm_num) (by norm_num) (ranges_nonneg h)

lemma zerosFirst_atrValues {s : List ExactCandle} (h : ∀ c ∈ s, c.WellFormed) :
    ZerosFirst (atrValues s) :=
  zerosFirst_expAverages (by norm_num) (by norm_num) (ranges_nonneg h)

/-- All candles stand at one price. -/
def Flat (s : List ExactCandle) : Prop := ∀ c ∈ s, ∀ d ∈ s, c.high = d.low

lemma flat_iff_head (s : List ExactCandle) :
    Flat s ↔ ∀ first ∈ s.head?, ∀ c ∈ s, c.high = first.low ∧ c.low = first.low := by
  cases s with
  | nil => exact ⟨fun _ first h => (nomatch h), fun _ c hc => absurd hc List.not_mem_nil⟩
  | cons first rest =>
    have hfirst : first ∈ first :: rest := List.mem_cons_self
    constructor
    · intro hflat first' hhead c hc
      obtain rfl : first = first' := Option.some_inj.mp hhead
      have hsame := hflat first hfirst first hfirst
      exact ⟨hflat c hc first hfirst, (hflat first hfirst c hc).symm.trans hsame⟩
    · intro hall c hc d hd
      rw [(hall first rfl c hc).1, (hall first rfl d hd).2]

instance (s : List ExactCandle) : Decidable (Flat s) := decidable_of_iff' _ (flat_iff_head s)

lemma rangeAfter_eq_zero_iff {previous c : ExactCandle} :
    rangeAfter previous c = 0 ↔ c.high = previous.close ∧ c.low = previous.close := by
  have hhigh : |c.high - previous.close| ≤ rangeAfter previous c :=
    (le_max_right _ _).trans (le_max_left _ _)
  have hlow : |c.low - previous.close| ≤ rangeAfter previous c := le_max_right _ _
  constructor
  · intro hzero
    rw [hzero, abs_nonpos_iff, sub_eq_zero] at hhigh hlow
    exact ⟨hhigh, hlow⟩
  · rintro ⟨hhigh, hlow⟩
    rw [rangeAfter, hhigh, hlow, sub_self, abs_zero, max_self, max_self]

/-- Candles at one price: the high and the low of each are the close of the first one. -/
lemma flat_iff {first : ExactCandle} {rest : List ExactCandle} (h : ∀ c ∈ first :: rest, c.WellFormed) :
    Flat (first :: rest) ↔ ∀ c ∈ first :: rest, c.high = first.close ∧ c.low = first.close := by
  constructor
  · intro hflat c hc
    have hfirst := h first List.mem_cons_self
    have hsame := hflat first List.mem_cons_self first List.mem_cons_self
    have hclose : first.close = first.high :=
      le_antisymm hfirst.close_le_high (hsame ▸ hfirst.low_le_close)
    have hhigh := hflat c hc first List.mem_cons_self
    have hlow := hflat first List.mem_cons_self c hc
    exact ⟨hhigh.trans (hsame.symm.trans hclose.symm), hlow.symm.trans hclose.symm⟩
  · intro hall c hc d hd
    rw [(hall c hc).1, (hall d hd).2]

/-- The ranges of candles after a flat one are zero if and only if they stay at its price. -/
lemma zipWith_rangeAfter_zero_iff {first : ExactCandle} {rest : List ExactCandle}
    (h : ∀ c ∈ rest, c.WellFormed) :
    (∀ r ∈ List.zipWith rangeAfter (first :: rest) rest, r = 0) ↔
      ∀ c ∈ rest, c.high = first.close ∧ c.low = first.close := by
  induction rest generalizing first with
  | nil => simp
  | cons c rest ih =>
    have hc := h c List.mem_cons_self
    rw [List.zipWith_cons_cons, List.forall_mem_cons, List.forall_mem_cons, rangeAfter_eq_zero_iff,
      ih fun d hd => h d (List.mem_cons_of_mem _ hd)]
    refine and_congr_right fun hat => ?_
    -- a candle at the price of the first one closes there
    have hclose : c.close = first.close :=
      le_antisymm (hat.1 ▸ hc.close_le_high) (hat.2 ▸ hc.low_le_close)
    rw [hclose]

lemma ranges_zero_iff {s : List ExactCandle} (h : ∀ c ∈ s, c.WellFormed) :
    (∀ r ∈ ranges s, r = 0) ↔ Flat s := by
  cases s with
  | nil => simp [ranges, Flat]
  | cons first rest =>
    have hfirst := h first List.mem_cons_self
    rw [flat_iff h, ranges, List.forall_mem_cons, List.forall_mem_cons,
      zipWith_rangeAfter_zero_iff fun c hc => h c (List.mem_cons_of_mem _ hc)]
    refine and_congr_left fun _ => ?_
    constructor
    · intro hzero
      have hsame : first.high = first.low := sub_eq_zero.mp hzero
      exact ⟨le_antisymm (hsame ▸ hfirst.low_le_close) hfirst.close_le_high,
        le_antisymm hfirst.low_le_close (hsame ▸ hfirst.close_le_high)⟩
    · rintro ⟨hhigh, hlow⟩
      rw [hhigh, hlow, sub_self]

lemma take_zipWith_rangeAfter (c : ExactCandle) (rest : List ExactCandle) (k : ℕ) :
    (List.zipWith rangeAfter (c :: rest) rest).take k =
      List.zipWith rangeAfter (c :: rest.take k) (rest.take k) := by
  induction rest generalizing c k with
  | nil => simp
  | cons d rest ih =>
    cases k with
    | zero => rfl
    | succ k => rw [List.zipWith_cons_cons, List.take_succ_cons, List.take_succ_cons, ih,
        List.zipWith_cons_cons]

lemma take_ranges (s : List ExactCandle) (k : ℕ) : (ranges s).take k = ranges (s.take k) := by
  cases s with
  | nil => simp [ranges]
  | cons c rest =>
    cases k with
    | zero => rfl
    | succ k =>
      rw [ranges, List.take_succ_cons, List.take_succ_cons, ranges, take_zipWith_rangeAfter]

/-- The ATR of a candle is zero if and only if the candles up to it stand at one price. -/
lemma val_atrValues_eq_zero_iff {s : List ExactCandle} (h : ∀ c ∈ s, c.WellFormed) {k : ℕ}
    (hk : k < s.length) : val (atrValues s) k = 0 ↔ Flat (s.take (k + 1)) := by
  have hranges : k < (ranges s).length := by rwa [length_ranges]
  rw [val, atrValues, getD_expAverages_eq_zero_iff (by norm_num) (by norm_num) (ranges_nonneg h) hranges,
    take_ranges, ranges_zero_iff fun c hc => h c (List.take_subset _ _ hc)]

/-! ## Candles -/

/-- What is in the dictionary of the bars is a candle. -/
lemma mem_of_get?_bars {open? : ExactCandle → ℤ} (m15 : List ExactCandle) {bars : Dict ℤ ExactCandle}
    {k : ℤ} {c : ExactCandle}
    (h : Dict.get? (m15.foldl (fun bars c => bars.set (open? c) c) bars) k = some c) :
    bars.get? k = some c ∨ c ∈ m15 := by
  induction m15 generalizing bars with
  | nil => exact .inl h
  | cons d m15 ih =>
    rcases ih h with hbars | hmem
    · rw [Dict.get?_set] at hbars
      split at hbars
      · cases hbars
        exact .inr List.mem_cons_self
      · exact .inl hbars
    · exact .inr (List.mem_cons_of_mem _ hmem)

/-- An M30 candle is built of two M15 candles. -/
lemma parts_of_mem_m30Series {x : XauM30} {m15 : List ExactCandle} {c : ExactCandle}
    (h : c ∈ x.m30Series m15) : ∃ first ∈ m15, ∃ second ∈ m15,
      c = ⟨first.opening, max first.high second.high, min first.low second.low, second.close, c.time⟩ := by
  obtain ⟨start, -, hbar⟩ := List.mem_filterMap.mp h
  unfold m30Bar at hbar
  split at hbar
  · cases hbar
  · split at hbar
    · rename_i first second hfirst hsecond
      have hempty (k : ℤ) (c : ExactCandle) : ¬ Dict.get? (.empty : Dict ℤ ExactCandle) k = some c :=
        fun h => Option.some_ne_none c h.symm
      cases hbar
      exact ⟨first, (mem_of_get?_bars m15 hfirst).resolve_left (hempty _ _), second,
        (mem_of_get?_bars m15 hsecond).resolve_left (hempty _ _), rfl⟩
    · cases hbar

lemma m30Series_wellFormed {x : XauM30} {m15 : List ExactCandle} (h : ∀ c ∈ m15, c.WellFormed) :
    ∀ c ∈ x.m30Series m15, c.WellFormed := by
  intro c hc
  obtain ⟨first, hfirst, second, hsecond, hparts⟩ := parts_of_mem_m30Series hc
  have h₁ := h first hfirst
  have h₂ := h second hsecond
  rw [hparts]
  exact ⟨(min_le_left _ _).trans h₁.low_le_opening, h₁.opening_le_high.trans (le_max_left _ _),
    (min_le_right _ _).trans h₂.low_le_close, h₂.close_le_high.trans (le_max_right _ _)⟩

lemma val_closes {s : List ExactCandle} {k : ℕ} (hk : k < s.length) : val (closes s) k = s[k].close := by
  have hcloses : k < (s.map ExactCandle.close).length := by rwa [List.length_map]
  exact (List.getD_eq_getElem _ _ hcloses).trans (List.getElem_map _)

lemma val_closes_pos {x : XauM30} {m15 : List ExactCandle} (h : ∀ c ∈ m15, 0 < c.close) {k : ℕ}
    (hk : k < (x.m30Series m15).length) : 0 < val (closes (x.m30Series m15)) k := by
  rw [val_closes hk]
  obtain ⟨first, -, second, hsecond, hparts⟩ :=
    parts_of_mem_m30Series (List.getElem_mem hk : (x.m30Series m15)[k] ∈ x.m30Series m15)
  rw [hparts]
  exact h second hsecond

/-- A time in milliseconds that is an open is kept. -/
lemma barOpenMs_of_ms {x : XauM30} (hopen : x.closeTimes = false) {value : ℤ}
    (hms : 1000000000000 ≤ value) (timeframeMs : ℤ) : x.barOpenMs value timeframeMs = value := by
  have hlarge : ¬ |value| < 1000000000000 := not_lt.mpr (hms.trans (le_abs_self value))
  unfold barOpenMs
  dsimp only
  rw [hopen, if_neg Bool.false_ne_true, SuploXau.timestampMs, if_neg hlarge]

/-! ## Candles in order -/

section Spaced

variable (x : XauM30)

/-- The open of an M15 candle. -/
def m15Open (c : ExactCandle) : ℤ := x.barOpenMs c.time m15Ms

/-- The candles open at least a quarter of an hour after each other. -/
def Spaced (m15 : List ExactCandle) : Prop :=
  m15.Pairwise fun a b => x.m15Open a + m15Ms ≤ x.m15Open b

/-- The M30 candle of two neighbours, if they make one. -/
def joinedBar (open? : ExactCandle → ℤ) (first second : ExactCandle) : Option ExactCandle :=
  if open? first % m30Ms = 0 ∧ open? second = open? first + m15Ms then
    some ⟨first.opening, max first.high second.high, min first.low second.low, second.close, open? first⟩
  else none

/-- The M30 candles of all neighbours. -/
def joined (open? : ExactCandle → ℤ) : List ExactCandle → List ExactCandle
  | first :: second :: rest => (joinedBar open? first second).toList ++ joined open? (second :: rest)
  | _ => []

/-- `bars` of `_m30_series`. -/
def quarters (m15 : List ExactCandle) : Dict ℤ ExactCandle :=
  m15.foldl (fun bars c => bars.set (x.m15Open c) c) .empty

variable {x}

/-- New keys come last. -/
lemma rows_foldl_set {open? : ExactCandle → ℤ} {m15 : List ExactCandle}
    (h : m15.Pairwise fun a b => open? a < open? b) (bars : Dict ℤ ExactCandle)
    (hnew : ∀ c ∈ m15, bars.contains (open? c) = false) :
    (m15.foldl (fun bars c => bars.set (open? c) c) bars).rows =
      bars.rows ++ m15.map fun c => (open? c, c) := by
  induction m15 generalizing bars with
  | nil => exact (List.append_nil _).symm
  | cons c m15 ih =>
    obtain ⟨hc, hrest⟩ := List.pairwise_cons.mp h
    have hrows := Dict.rows_set_of_not_contains (hnew c List.mem_cons_self) c
    have hnew' : ∀ d ∈ m15, (bars.set (open? c) c).contains (open? d) = false := by
      intro d hd
      rw [Bool.eq_false_iff, Ne, Dict.contains_set, not_or, hnew d (List.mem_cons_of_mem _ hd)]
      exact ⟨(hc d hd).ne', Bool.false_ne_true⟩
    rw [List.foldl_cons, ih hrest _ hnew', hrows, List.append_assoc]
    rfl

lemma Spaced.ascending {m15 : List ExactCandle} (h : x.Spaced m15) :
    m15.Pairwise fun a b => x.m15Open a < x.m15Open b := by
  have hm15 : (0 : ℤ) < m15Ms := by decide
  exact h.imp fun hle => (lt_add_of_pos_right _ hm15).trans_le hle

lemma rows_quarters {m15 : List ExactCandle} (h : x.Spaced m15) :
    (x.quarters m15).rows = m15.map fun c => (x.m15Open c, c) :=
  rows_foldl_set h.ascending .empty fun _ _ => rfl

lemma get?_quarters {m15 : List ExactCandle} (h : x.Spaced m15) (k : ℤ) (c : ExactCandle) :
    (x.quarters m15).get? k = some c ↔ c ∈ m15 ∧ x.m15Open c = k := by
  rw [Dict.get?_some_iff, rows_quarters h, List.mem_map]
  constructor
  · rintro ⟨d, hd, heq⟩
    cases heq
    exact ⟨hd, rfl⟩
  · rintro ⟨hc, rfl⟩
    exact ⟨c, hc, rfl⟩

section Suffix

variable {before rest : List ExactCandle} {first : ExactCandle}

/-- What opens a quarter of an hour after a candle is the next one. -/
lemma next_of_get? (h : x.Spaced (before ++ first :: rest)) {c : ExactCandle}
    (hc : (x.quarters (before ++ first :: rest)).get? (x.m15Open first + m15Ms) = some c) :
    rest.head? = some c := by
  have hm15 : (0 : ℤ) < m15Ms := by decide
  obtain ⟨hmem, ht⟩ := (get?_quarters h _ _).mp hc
  obtain ⟨-, htail, hbefore⟩ := List.pairwise_append.mp h
  obtain ⟨hfirst, hrest⟩ := List.pairwise_cons.mp htail
  rcases List.mem_append.mp hmem with hmem | hmem
  · have hearlier := hbefore c hmem first List.mem_cons_self
    omega
  · rcases List.mem_cons.mp hmem with rfl | hmem
    · omega
    · cases rest with
      | nil => exact absurd hmem List.not_mem_nil
      | cons second tail =>
        rcases List.mem_cons.mp hmem with rfl | hmem
        · rfl
        · have hlater := (List.pairwise_cons.mp hrest).1 c hmem
          have hsecond := hfirst second List.mem_cons_self
          omega

lemma get?_first (h : x.Spaced (before ++ first :: rest)) :
    (x.quarters (before ++ first :: rest)).get? (x.m15Open first) = some first :=
  (get?_quarters h _ _).mpr ⟨List.mem_append_right _ List.mem_cons_self, rfl⟩

/-- The M30 candle from a candle on. -/
lemma m30Bar_quarters (h : x.Spaced (before ++ first :: rest)) :
    m30Bar (x.quarters (before ++ first :: rest)) (x.m15Open first) =
      rest.head?.bind (joinedBar x.m15Open first) := by
  have hfirst := get?_first h
  unfold m30Bar
  by_cases hstart : x.m15Open first % m30Ms = 0
  · rw [if_neg (not_not.mpr hstart), hfirst]
    cases hc : (x.quarters (before ++ first :: rest)).get? (x.m15Open first + m15Ms) with
    | some c =>
      rw [next_of_get? h hc, Option.bind_some, joinedBar, if_pos ⟨hstart, ((get?_quarters h _ _).mp hc).2⟩]
    | none =>
      cases rest with
      | nil => rfl
      | cons second tail =>
        rw [List.head?_cons, Option.bind_some, joinedBar, if_neg]
        rintro ⟨-, hsecond⟩
        have hmem : second ∈ before ++ first :: second :: tail :=
          List.mem_append_right _ (List.mem_cons_of_mem _ List.mem_cons_self)
        rw [(get?_quarters h _ second).mpr ⟨hmem, hsecond⟩] at hc
        cases hc
  · rw [if_pos hstart]
    cases rest with
    | nil => rfl
    | cons second tail => exact (if_neg fun hjoin => hstart hjoin.1).symm

end Suffix

/-- Of candles in order the neighbours are joined. -/
lemma m30Series_of_spaced {m15 : List ExactCandle} (h : x.Spaced m15) :
    x.m30Series m15 = joined x.m15Open m15 := by
  have hsorted : (x.quarters m15).keys.insertionSort (· ≤ ·) = m15.map x.m15Open := by
    rw [Dict.keys, rows_quarters h, List.map_map]
    exact (List.pairwise_map.mpr (h.ascending.imp le_of_lt)).insertionSort_eq
  have hsuffix (before l : List ExactCandle) (hl : m15 = before ++ l) :
      (l.map x.m15Open).filterMap (m30Bar (x.quarters m15)) = joined x.m15Open l := by
    induction l generalizing before with
    | nil => rfl
    | cons first rest ih =>
      have hrest := ih (before ++ [first]) (by rw [hl, List.append_assoc]; rfl)
      have hbar : m30Bar (x.quarters m15) (x.m15Open first) = rest.head?.bind (joinedBar x.m15Open first) := by
        rw [hl] at h ⊢
        exact m30Bar_quarters h
      rw [List.map_cons, List.filterMap_cons, hbar, hrest]
      cases rest with
      | nil => rfl
      | cons second tail =>
        rw [List.head?_cons, Option.bind_some, joined]
        cases joinedBar x.m15Open first second <;> rfl
  show ((x.quarters m15).keys.insertionSort (· ≤ ·)).filterMap (m30Bar (x.quarters m15)) = _
  rw [hsorted]
  exact hsuffix [] m15 rfl

lemma joined_congr {open? open?' : ExactCandle → ℤ} {m15 : List ExactCandle}
    (h : ∀ c ∈ m15, open? c = open?' c) : joined open? m15 = joined open?' m15 := by
  induction m15 with
  | nil => rfl
  | cons first rest ih =>
    cases rest with
    | nil => rfl
    | cons second tail =>
      have hsecond : second ∈ first :: second :: tail := List.mem_cons_of_mem _ List.mem_cons_self
      rw [joined, joined, joinedBar, joinedBar, h first List.mem_cons_self, h second hsecond,
        ih fun c hc => h c (List.mem_cons_of_mem _ hc)]

/-- Candles whose times are their opens already. -/
lemma m30Series_of_times {m15 : List ExactCandle} (hopen : ∀ c ∈ m15, x.m15Open c = c.time)
    (h : m15.Pairwise fun a b => a.time + m15Ms ≤ b.time) :
    x.m30Series m15 = joined ExactCandle.time m15 := by
  have hspaced : x.Spaced m15 := by
    refine h.imp_of_mem fun {a b} ha hb hle => ?_
    rwa [hopen a ha, hopen b hb]
  rw [m30Series_of_spaced hspaced, joined_congr hopen]

end Spaced

/-! ## `_entry_side` -/

/-- With a macro trend only its own side is a candidate. -/
lemma firstMatch_gated (x : XauM30) (hgated : x.preset.macroGated = true) (s : List ExactCandle)
    (v : Indicators) (side : Side) :
    x.firstMatch s v (some side) [.long, .short] =
      (x.matchesSide s v side).map fun b => if b then some side else none := by
  have hskip (rest : List Side) :
      x.firstMatch s v (some side) (side.swap :: rest) = x.firstMatch s v (some side) rest := by
    have hother : some side ≠ some side.swap := by cases side <;> decide
    rw [firstMatch, if_pos ⟨hgated, hother⟩]
  have htake (rest : List Side) (hrest : x.firstMatch s v (some side) rest = .ok none) :
      x.firstMatch s v (some side) (side :: rest) =
        (x.matchesSide s v side).map fun b => if b then some side else none := by
    rw [firstMatch, if_neg fun h => h.2 rfl, hrest]
    cases hb : x.matchesSide s v side with
    | error e => rfl
    | ok b => cases b <;> rfl
  cases side with
  | long => exact htake [.short] (hskip [])
  | short => exact (hskip [.short]).trans (htake [] rfl)

/-- The presets that are not long only need a macro trend. -/
lemma macroGated_of_bothSides {x : XauM30} (hboth : x.preset.longOnly = false) :
    x.preset.macroGated = true := by
  have hpresets : ∀ preset ∈ xauPresets, preset.longOnly = false → preset.macroGated = true := by decide
  exact hpresets x.preset x.known hboth

/-- The indicators of `_entry_side`. -/
def indicators (s : List ExactCandle) : Indicators where
  e9 := ema (closes s) 9
  e21 := ema (closes s) 21
  e50 := ema (closes s) 50
  rsi := rsiValues (closes s)
  atr := atrValues s

/-- `_entry_side` of the presets that trade both sides: the side of the macro trend, if it matches. -/
lemma entrySide_gated {x : XauM30} (hboth : x.preset.longOnly = false) (s h4 : List ExactCandle) :
    x.entrySide s h4 =
      if val (atrValues s) (s.length - 1) ≤ 0 then .ok none
      else match macroSide h4 with
        | none => .ok none
        | some side => (x.matchesSide s (indicators s) side).map fun b => if b then some side else none := by
  have hgated := macroGated_of_bothSides hboth
  unfold entrySide
  rw [rsi_eq, atr_eq]
  show (if val (atrValues s) (s.length - 1) ≤ 0 then Except.ok none else _) = _
  by_cases hatr : val (atrValues s) (s.length - 1) ≤ 0
  · rw [if_pos hatr, if_pos hatr]
  · rw [if_neg hatr, if_neg hatr, if_pos hgated]
    cases htrend : macroSide h4 with
    | none => exact if_pos ⟨hgated, rfl⟩
    | some side =>
      have hsides : (if x.preset.longOnly = true then [Side.long] else [.long, .short]) =
          [.long, .short] := by
        rw [hboth]
        rfl
      have hsome : ¬ (x.preset.macroGated = true ∧ some side = none) := by simp
      rw [if_neg hsome, hsides]
      exact firstMatch_gated x hgated s (indicators s) side

end XauM30

end PaperTrade.Runner
