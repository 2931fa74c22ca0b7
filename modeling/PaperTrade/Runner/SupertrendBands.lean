import PaperTrade.Runtime.FloatNeg
import PaperTrade.Runner.ExactCandle
import PaperTrade.Runner.SmoothChan

/-!
# The bands of `compute_supertrend_multi`

The loop of `compute_supertrend_multi` does not keep its last direction. It recovers it by comparing its
line with the upper band, so an uptrend whose bands coincide is taken for a downtrend. `turn` is the
recursion on the direction itself, as `compute_supertrend_directions` does it; both run over the same
bands.
-/

namespace PaperTrade.Runner

open PaperTrade.Runtime

/-! ## The bands of a series -/

/-- The iterations of `compute_supertrend_multi` after the one that is given. -/
def multiBandsLoop (factor : PyFloat) : MultiBands → List Candle → List PyFloat → List MultiBands
  | prev, c :: candles, atr :: atrs =>
    let b := prev.next factor c atr
    b :: multiBandsLoop factor b candles atrs
  | _, _, _ => []

/-- The iterations of `compute_supertrend_multi` from `atr_period - 1` on. -/
def multiBands (factor : PyFloat) (atrPeriod : ℕ) (candles : List Candle) : List MultiBands :=
  match candles.drop (atrPeriod - 1), (multiAtr atrPeriod candles).drop (atrPeriod - 1) with
  | c :: rest, atr :: atrs =>
    let b := MultiBands.first factor c atr
    b :: multiBandsLoop factor b rest atrs
  | _, _ => []

lemma map_direction_multiBandsLoop (factor : PyFloat) (b : MultiBands) (candles : List Candle)
    (atrs : List PyFloat) :
    (multiBandsLoop factor b candles atrs).map MultiBands.direction =
      multiLoop factor b candles atrs := by
  induction candles generalizing b atrs with
  | nil => cases atrs <;> rfl
  | cons c candles ih =>
    cases atrs with
    | nil => rfl
    | cons atr atrs => exact congrArg _ (ih _ atrs)

/-- The directions are those of the bands, after the bars that have none. -/
lemma multiDirections_eq (factor : PyFloat) (atrPeriod : ℕ) (candles : List Candle) :
    multiDirections factor atrPeriod candles =
      List.replicate (min (atrPeriod - 1) candles.length) 0 ++
        (multiBands factor atrPeriod candles).map MultiBands.direction := by
  unfold multiDirections multiBands
  cases candles.drop (atrPeriod - 1) with
  | nil => exact (List.append_nil _).symm
  | cons c rest =>
    cases (multiAtr atrPeriod candles).drop (atrPeriod - 1) with
    | nil => exact (List.append_nil _).symm
    | cons atr atrs =>
      dsimp only
      rw [List.map_cons, map_direction_multiBandsLoop]

/-! ## The recursion on the direction -/

namespace MultiBands

/-- The direction after `direction`, over the bands of the next bar. -/
def turn (direction : ℤ) (b : MultiBands) : ℤ :=
  if direction = 1 then (if b.upper < b.close then -1 else 1)
  else (if b.close < b.lower then 1 else -1)

/-- `compute_supertrend_directions` turns so. -/
lemma direction_bandsNext (factor : PyFloat) (prev : Bands) (c : Candle) (atr line : PyFloat) :
    (prev.next factor c atr).direction = turn prev.direction
      ⟨c.close, (prev.next factor c atr).finalUb, (prev.next factor c atr).finalLb, line, 0⟩ := rfl

/-- The directions of the recursion over later bands. -/
def recursed : ℤ → List MultiBands → List ℤ
  | _, [] => []
  | direction, b :: rest => turn direction b :: recursed (turn direction b) rest

/-- The directions of the recursion over the bands of a series. -/
def recursedDirections : List MultiBands → List ℤ
  | [] => []
  | b :: rest => b.direction :: recursed b.direction rest

/-- The close is between both bands or, where they are crossed, beyond both: the next direction is
another one after an uptrend than after a downtrend. -/
def Splits (b : MultiBands) : Prop := b.upper < b.close ↔ b.close < b.lower

instance (b : MultiBands) : Decidable b.Splits := inferInstanceAs (Decidable (_ ↔ _))

/-- No bar of an uptrend of the recursion has bands that coincide and a next bar that splits. -/
def Unambiguous : ℤ → MultiBands → List MultiBands → Prop
  | _, _, [] => True
  | direction, b, b' :: rest =>
    ¬ (direction = -1 ∧ b.lower = b.upper ∧ b'.Splits) ∧ Unambiguous (turn direction b') b' rest

instance decidableUnambiguous : (direction : ℤ) → (b : MultiBands) → (rest : List MultiBands) →
    Decidable (Unambiguous direction b rest)
  | _, _, [] => .isTrue trivial
  | direction, b, b' :: rest =>
    have := decidableUnambiguous (turn direction b') b' rest
    inferInstanceAs (Decidable (¬ (direction = -1 ∧ b.lower = b.upper ∧ b'.Splits) ∧ _))

/-- The same over the bands of a series. -/
def AllUnambiguous : List MultiBands → Prop
  | [] => True
  | b :: rest => Unambiguous b.direction b rest

instance : (bs : List MultiBands) → Decidable (AllUnambiguous bs)
  | [] => .isTrue trivial
  | b :: rest => inferInstanceAs (Decidable (Unambiguous b.direction b rest))

/-- The bar closes between bands that are crossed. -/
def InCrossed (b : MultiBands) : Prop := b.upper < b.close ∧ b.close < b.lower

/-- The band that is active in the direction of the first bar is not looser on the second one. -/
def KeepsActive (b b' : MultiBands) : Prop :=
  (b.direction = -1 → b.lower ≤ b'.lower) ∧ (b.direction = 1 → b'.upper ≤ b.upper)

lemma turn_eq_iff (b : MultiBands) : turn 1 b = turn (-1) b ↔ ¬ b.Splits := by
  have hdown : ¬ (-1 : ℤ) = 1 := by decide
  unfold turn Splits
  rw [if_pos rfl, if_neg hdown]
  by_cases hup : b.upper < b.close <;> by_cases hlow : b.close < b.lower <;> simp [hup, hlow]

/-! ## One iteration -/

/-- What every iteration leaves: finite bands, a line on one of them, and a close that has not crossed the
active one, unless the bands are crossed. -/
structure Sound (b : MultiBands) : Prop where
  finite : b.upper.isFinite = true ∧ b.lower.isFinite = true
  line : (b.direction = 1 ∧ b.supertrend = b.upper) ∨ (b.direction = -1 ∧ b.supertrend = b.lower)
  down : b.direction = 1 → b.upper < b.close → b.close < b.lower
  up : b.direction = -1 → b.close < b.lower → b.upper < b.close

lemma pyEq_self {a : PyFloat} (h : a.isFinite = true) : pyEq a a = true := by
  obtain ⟨q, rfl⟩ := (PyFloat.isFinite_iff a).mp h
  simp [pyEq]

lemma pyEq_iff {a b : PyFloat} (h : b.isFinite = true) : pyEq a b = true ↔ a = b := by
  constructor
  · intro heq
    exact of_decide_eq_true (Bool.and_eq_true_iff.mp heq).1
  · rintro rfl
    exact pyEq_self h

/-- The direction that the line shows: an uptrend with bands that coincide reads as a downtrend. -/
lemma Sound.pyEq_line {b : MultiBands} (h : b.Sound) :
    pyEq b.supertrend b.upper = true ↔ b.direction = 1 ∨ b.lower = b.upper := by
  rw [pyEq_iff h.finite.1]
  rcases h.line with ⟨hdir, hline⟩ | ⟨hdir, hline⟩
  · rw [hline]
    exact ⟨fun _ => .inl hdir, fun _ => rfl⟩
  · have hne : b.direction ≠ 1 := by rw [hdir]; decide
    rw [hline]
    exact ⟨.inr, fun h => h.resolve_left hne⟩

lemma isFinite_basicBands (factor : ℚ) (c : ExactCandle) {atr : PyFloat} (hatr : atr.isFinite = true) :
    (basicBands factor c.floats atr).1.isFinite = true ∧
      (basicBands factor c.floats atr).2.isFinite = true := by
  obtain ⟨a, rfl⟩ := (PyFloat.isFinite_iff atr).mp hatr
  have htwo : (2 : ℚ) ≠ 0 := by norm_num
  have hhalf : (PyFloat.fin (c.high + c.low) / PyFloat.fin 2) = .fin ((c.high + c.low) / 2) :=
    PyFloat.div_fin _ htwo
  simp [basicBands, ExactCandle.floats, hhalf]

lemma sound_first (factor : ℚ) (c : ExactCandle) {atr : PyFloat} (hatr : atr.isFinite = true) :
    (first factor c.floats atr).Sound := by
  have hfinite := isFinite_basicBands factor c hatr
  obtain ⟨u, hu⟩ := (PyFloat.isFinite_iff _).mp hfinite.1
  unfold first
  by_cases hclose : c.floats.close ≤ (basicBands factor c.floats atr).1
  · have hle : c.close ≤ u := by
      rw [hu] at hclose
      exact (PyFloat.fin_le_fin _ _).mp hclose
    have hnot : ¬ (basicBands factor c.floats atr).1 < c.floats.close := by
      rw [hu]
      exact fun hlt => absurd ((PyFloat.fin_lt_fin _ _).mp hlt) (not_lt.mpr hle)
    dsimp only
    rw [if_pos hclose]
    exact ⟨hfinite, .inl ⟨rfl, rfl⟩, fun _ h => absurd h hnot, (nomatch ·)⟩
  · have hlt : (basicBands factor c.floats atr).1 < c.floats.close := by
      rw [hu] at hclose ⊢
      exact (PyFloat.fin_lt_fin _ _).mpr (not_le.mp fun h => hclose ((PyFloat.fin_le_fin _ _).mpr h))
    dsimp only
    rw [if_neg hclose]
    exact ⟨hfinite, .inr ⟨rfl, rfl⟩, (nomatch ·), fun _ _ => hlt⟩

/-- The upper band of a later iteration. -/
def nextUpper (factor : PyFloat) (prev : MultiBands) (c : Candle) (atr : PyFloat) : PyFloat :=
  if (basicBands factor c atr).1 < prev.upper ∨ prev.upper < prev.close then
    (basicBands factor c atr).1
  else prev.upper

/-- The lower band of a later iteration. -/
def nextLower (factor : PyFloat) (prev : MultiBands) (c : Candle) (atr : PyFloat) : PyFloat :=
  if prev.lower < (basicBands factor c atr).2 ∨ prev.close < prev.lower then
    (basicBands factor c atr).2
  else prev.lower

/-- A later iteration is that of a downtrend or that of an uptrend. -/
lemma next_eq (factor : PyFloat) (prev : MultiBands) (c : Candle) (atr : PyFloat) :
    prev.next factor c atr =
      if pyEq prev.supertrend prev.upper then
        (if prev.nextUpper factor c atr < c.close then
          ⟨c.close, prev.nextUpper factor c atr, prev.nextLower factor c atr,
            prev.nextLower factor c atr, -1⟩
        else ⟨c.close, prev.nextUpper factor c atr, prev.nextLower factor c atr,
            prev.nextUpper factor c atr, 1⟩)
      else
        (if c.close < prev.nextLower factor c atr then
          ⟨c.close, prev.nextUpper factor c atr, prev.nextLower factor c atr,
            prev.nextUpper factor c atr, 1⟩
        else ⟨c.close, prev.nextUpper factor c atr, prev.nextLower factor c atr,
            prev.nextLower factor c atr, -1⟩) := rfl

section Next

variable (factor : PyFloat) (prev : MultiBands) (c : Candle) (atr : PyFloat)

@[simp] lemma close_next : (prev.next factor c atr).close = c.close := by
  rw [next_eq]
  split_ifs <;> rfl

@[simp] lemma upper_next : (prev.next factor c atr).upper = prev.nextUpper factor c atr := by
  rw [next_eq]
  split_ifs <;> rfl

@[simp] lemma lower_next : (prev.next factor c atr).lower = prev.nextLower factor c atr := by
  rw [next_eq]
  split_ifs <;> rfl

lemma line_next :
    ((prev.next factor c atr).direction = 1 ∧
      (prev.next factor c atr).supertrend = (prev.next factor c atr).upper) ∨
    ((prev.next factor c atr).direction = -1 ∧
      (prev.next factor c atr).supertrend = (prev.next factor c atr).lower) := by
  rw [next_eq]
  split_ifs
  · exact .inr ⟨rfl, rfl⟩
  · exact .inl ⟨rfl, rfl⟩
  · exact .inl ⟨rfl, rfl⟩
  · exact .inr ⟨rfl, rfl⟩

/-- The direction is that of the recursion, from the direction that the line shows. -/
lemma direction_next :
    (prev.next factor c atr).direction =
      turn (if pyEq prev.supertrend prev.upper then 1 else -1) (prev.next factor c atr) := by
  have hdown : ¬ (-1 : ℤ) = 1 := by decide
  unfold turn
  rw [close_next, upper_next, lower_next, next_eq]
  by_cases hline : pyEq prev.supertrend prev.upper = true
  · rw [if_pos hline, if_pos hline, if_pos rfl]
    split <;> rfl
  · rw [if_neg hline, if_neg hline, if_neg hdown]
    split <;> rfl

end Next

/-- A close beyond the band of its own direction is beyond the other band too. -/
lemma beyond_of_turn {d : ℤ} {b : MultiBands} (h : b.direction = turn d b) :
    (b.direction = 1 → b.upper < b.close → b.close < b.lower) ∧
    (b.direction = -1 → b.close < b.lower → b.upper < b.close) := by
  unfold turn at h
  constructor
  · intro hdir hup
    rw [hdir] at h
    by_contra hlow
    simp [hup, hlow] at h
  · intro hdir hlow
    rw [hdir] at h
    by_contra hup
    simp [hup, hlow] at h

lemma sound_next (factor : ℚ) {b : MultiBands} (h : b.Sound) (c : ExactCandle) {atr : PyFloat}
    (hatr : atr.isFinite = true) : (b.next factor c.floats atr).Sound := by
  have hfinite := isFinite_basicBands factor c hatr
  have hturn := beyond_of_turn (direction_next factor b c.floats atr)
  refine ⟨⟨?_, ?_⟩, line_next _ _ _ _, hturn.1, hturn.2⟩
  · rw [upper_next, nextUpper]
    split
    · exact hfinite.1
    · exact h.finite.1
  · rw [lower_next, nextLower]
    split
    · exact hfinite.2
    · exact h.finite.2

/-- The direction of an iteration is that of the recursion exactly when it is not misread. -/
lemma direction_next_iff (factor : PyFloat) {b : MultiBands} (h : b.Sound) (c : Candle)
    (atr : PyFloat) :
    (b.next factor c atr).direction = turn b.direction (b.next factor c atr) ↔
      ¬ (b.direction = -1 ∧ b.lower = b.upper ∧ (b.next factor c atr).Splits) := by
  rw [direction_next]
  rcases h.line with ⟨hdir, -⟩ | ⟨hdir, -⟩
  · have hline : pyEq b.supertrend b.upper = true := h.pyEq_line.mpr (.inl hdir)
    have hup : ¬ (1 : ℤ) = -1 := by decide
    rw [if_pos hline, hdir]
    exact ⟨fun _ hmis => hup hmis.1, fun _ => rfl⟩
  · have hdown : ¬ b.direction = 1 := by rw [hdir]; decide
    by_cases heq : b.lower = b.upper
    · rw [if_pos (h.pyEq_line.mpr (.inr heq)), hdir, turn_eq_iff]
      exact ⟨fun hsplit hmis => hsplit hmis.2.2, fun hmis hsplit => hmis ⟨rfl, heq, hsplit⟩⟩
    · have hline : ¬ pyEq b.supertrend b.upper = true := by
        rw [h.pyEq_line]
        exact fun hor => hor.elim hdown heq
      rw [if_neg hline, hdir]
      exact ⟨fun _ hmis => heq hmis.2.1, fun _ => rfl⟩

/-- The active band does not loosen after a bar that has not closed between crossed bands. -/
lemma keepsActive_next (factor : PyFloat) {b : MultiBands} (h : b.Sound) (c : Candle) (atr : PyFloat)
    (hcrossed : ¬ b.InCrossed) : b.KeepsActive (b.next factor c atr) := by
  have hne : ∀ {a : PyFloat}, a.isFinite = true → a ≠ .nan := by
    rintro a ha rfl
    exact nomatch ha
  constructor
  · intro hdir
    have hclose : ¬ b.close < b.lower := fun hlow => hcrossed ⟨h.up hdir hlow, hlow⟩
    rw [lower_next, nextLower]
    split
    · rename_i hbasic
      exact PyFloat.le_of_lt (hbasic.resolve_right hclose)
    · exact PyFloat.le_self (hne h.finite.2)
  · intro hdir
    have hclose : ¬ b.upper < b.close := fun hup => hcrossed ⟨hup, h.down hdir hup⟩
    rw [upper_next, nextUpper]
    split
    · rename_i hbasic
      exact PyFloat.le_of_lt (hbasic.resolve_right hclose)
    · exact PyFloat.le_self (hne h.finite.1)

/-! ## The whole series -/

lemma recursed_iff (factor : ℚ) {b : MultiBands} (h : b.Sound) (candles : List ExactCandle)
    {atrs : List PyFloat} (hatrs : ∀ atr ∈ atrs, atr.isFinite = true) :
    (multiBandsLoop factor b (candles.map ExactCandle.floats) atrs).map direction =
        recursed b.direction (multiBandsLoop factor b (candles.map ExactCandle.floats) atrs) ↔
      Unambiguous b.direction b (multiBandsLoop factor b (candles.map ExactCandle.floats) atrs) := by
  induction candles generalizing b atrs with
  | nil => cases atrs <;> exact ⟨fun _ => trivial, fun _ => rfl⟩
  | cons c candles ih =>
    cases atrs with
    | nil => exact ⟨fun _ => trivial, fun _ => rfl⟩
    | cons atr atrs =>
      have hsound := sound_next factor h c (hatrs atr List.mem_cons_self)
      have hrest := ih hsound fun a ha => hatrs a (List.mem_cons_of_mem _ ha)
      have hstep := direction_next_iff factor h c.floats atr
      rw [List.map_cons, multiBandsLoop]
      show _ :: _ = _ :: _ ↔ _ ∧ _
      rw [List.cons.injEq, hstep]
      constructor
      · rintro ⟨hdir, htail⟩
        rw [← hstep.mpr hdir] at htail ⊢
        exact ⟨hdir, hrest.mp htail⟩
      · rintro ⟨hdir, htail⟩
        rw [← hstep.mpr hdir] at htail ⊢
        exact ⟨hdir, hrest.mpr htail⟩

lemma isChain_multiBandsLoop (factor : ℚ) {b : MultiBands} (h : b.Sound) (candles : List ExactCandle)
    {atrs : List PyFloat} (hatrs : ∀ atr ∈ atrs, atr.isFinite = true) :
    List.IsChain (fun b b' => b.KeepsActive b' ∨ b.InCrossed)
      (b :: multiBandsLoop factor b (candles.map ExactCandle.floats) atrs) := by
  induction candles generalizing b atrs with
  | nil => cases atrs <;> exact List.isChain_singleton b
  | cons c candles ih =>
    cases atrs with
    | nil => exact List.isChain_singleton b
    | cons atr atrs =>
      have hsound := sound_next factor h c (hatrs atr List.mem_cons_self)
      have hrest := ih hsound fun a ha => hatrs a (List.mem_cons_of_mem _ ha)
      refine List.isChain_cons_cons.mpr ⟨?_, hrest⟩
      by_cases hcrossed : b.InCrossed
      · exact .inr hcrossed
      · exact .inl (keepsActive_next factor h c.floats atr hcrossed)

end MultiBands

/-! ## The ATR -/

lemma isFinite_trueRange {prev : PyFloat} (hprev : prev.isFinite = true) (c : ExactCandle) :
    (trueRange prev c.floats).isFinite = true := by
  obtain ⟨q, rfl⟩ := (PyFloat.isFinite_iff prev).mp hprev
  simp [trueRange, ExactCandle.floats]

lemma isFinite_zipWith_trueRange (l l' : List ExactCandle) :
    ∀ v ∈ List.zipWith (fun prev c : Candle => trueRange prev.close c) (l.map ExactCandle.floats)
      (l'.map ExactCandle.floats), v.isFinite = true := by
  induction l generalizing l' with
  | nil => exact fun v hv => absurd hv List.not_mem_nil
  | cons c l ih =>
    cases l' with
    | nil => exact fun v hv => absurd hv List.not_mem_nil
    | cons c' l' =>
      intro v hv
      rcases List.mem_cons.mp hv with rfl | hv
      · exact isFinite_trueRange rfl c'
      · exact ih l' v hv

/-- All true ranges but the first one are finite. -/
lemma isFinite_trueRanges (candles : List ExactCandle) :
    ∀ v ∈ (trueRanges (candles.map ExactCandle.floats)).tail, v.isFinite = true := by
  cases candles with
  | nil => exact fun v hv => absurd hv List.not_mem_nil
  | cons c rest => exact isFinite_zipWith_trueRange (c :: rest) rest

lemma isFinite_wilderLoop {period : ℕ} (hperiod : period ≠ 0) {prev : PyFloat} {values : List PyFloat}
    (hprev : prev.isFinite = true) (h : ∀ v ∈ values, v.isFinite = true) :
    ∀ v ∈ wilderLoop period prev values, v.isFinite = true := by
  induction values generalizing prev with
  | nil => exact fun v hv => absurd hv List.not_mem_nil
  | cons value rest ih =>
    obtain ⟨p, rfl⟩ := (PyFloat.isFinite_iff prev).mp hprev
    obtain ⟨q, rfl⟩ := (PyFloat.isFinite_iff value).mp (h value List.mem_cons_self)
    have hdivisor : (period : ℚ) ≠ 0 := Nat.cast_ne_zero.mpr hperiod
    have hnext : ((PyFloat.fin p * .fin (period - 1) + .fin q) / .fin period).isFinite = true := by
      rw [PyFloat.mul_fin, PyFloat.add_fin, PyFloat.div_fin _ hdivisor]
      rfl
    intro v hv
    rcases List.mem_cons.mp hv with rfl | hv
    · exact hnext
    · exact ih hnext (fun v hv => h v (List.mem_cons_of_mem _ hv)) v hv

lemma isFinite_foldl_add {l : List PyFloat} (h : ∀ v ∈ l, v.isFinite = true) {a : PyFloat}
    (ha : a.isFinite = true) : (l.foldl (· + ·) a).isFinite = true := by
  induction l generalizing a with
  | nil => exact ha
  | cons v l ih =>
    obtain ⟨p, rfl⟩ := (PyFloat.isFinite_iff a).mp ha
    obtain ⟨q, rfl⟩ := (PyFloat.isFinite_iff v).mp (h v List.mem_cons_self)
    exact ih (fun w hw => h w (List.mem_cons_of_mem _ hw)) rfl

/-- From its seed on the ATR is finite: the seed has at least one true range. -/
lemma isFinite_multiAtr {period : ℕ} (hperiod : 2 ≤ period) (candles : List ExactCandle) :
    ∀ v ∈ (multiAtr period (candles.map ExactCandle.floats)).drop (period - 1),
      v.isFinite = true := by
  have htail := isFinite_trueRanges candles
  unfold multiAtr wilderAtr
  generalize trueRanges (candles.map ExactCandle.floats) = ranges at htail
  split
  · rename_i hshort
    intro v hv
    rw [List.drop_eq_nil_of_le (by rw [List.length_replicate]; omega)] at hv
    exact absurd hv List.not_mem_nil
  · rename_i hlong
    dsimp only
    rw [List.drop_left' (List.length_replicate ..)]
    -- the second true range is among those of the seed
    have hdrop : (ranges.take period).drop 1 ≠ [] := by
      intro hnil
      have hlength := List.drop_eq_nil_iff.mp hnil
      rw [List.length_take] at hlength
      omega
    obtain ⟨second, hsecond⟩ := List.exists_mem_of_ne_nil _ hdrop
    have hfinite : second.isFinite = true := by
      apply htail
      rw [← List.drop_one]
      exact (List.Sublist.drop (List.take_sublist period ranges) 1).mem hsecond
    have hseeds : second ∈ (ranges.take period).filter PyFloat.isFinite :=
      List.mem_filter.mpr ⟨List.mem_of_mem_drop hsecond, hfinite⟩
    have hsome : ((ranges.take period).filter PyFloat.isFinite).length ≠ 0 :=
      (List.length_pos_of_mem hseeds).ne'
    have hseed : (if ((ranges.take period).filter PyFloat.isFinite).isEmpty then PyFloat.nan
        else ((ranges.take period).filter PyFloat.isFinite).foldl (· + ·) 0 /
          .fin ((ranges.take period).filter PyFloat.isFinite).length).isFinite = true := by
      have hsum := isFinite_foldl_add (a := 0) (l := (ranges.take period).filter PyFloat.isFinite)
        (fun v hv => (List.mem_filter.mp hv).2) rfl
      obtain ⟨q, hq⟩ := (PyFloat.isFinite_iff _).mp hsum
      rw [if_neg (by rw [List.isEmpty_iff_length_eq_zero]; exact hsome), hq,
        PyFloat.div_fin _ (Nat.cast_ne_zero.mpr hsome)]
      rfl
    intro v hv
    rcases List.mem_cons.mp hv with rfl | hv
    · exact hseed
    · refine isFinite_wilderLoop (by omega) hseed (fun v hv => htail v ?_) v hv
      rw [← List.drop_one]
      have hdropped : (ranges.drop 1).drop (period - 1) = ranges.drop period := by
        rw [List.drop_drop]
        congr 1
        omega
      rw [← hdropped] at hv
      exact List.mem_of_mem_drop hv

/-! ## The law -/

open MultiBands

/-- The bands of a series of finite candles: the recursion agrees with the code exactly when no bar is
ambiguous, and an active band loosens only after a bar that has closed between crossed bands. -/
lemma multiBands_cases (factor : ℚ) {atrPeriod : ℕ} (hperiod : 2 ≤ atrPeriod)
    (candles : List ExactCandle) :
    ((multiBands factor atrPeriod (candles.map ExactCandle.floats)).map direction =
        recursedDirections (multiBands factor atrPeriod (candles.map ExactCandle.floats)) ↔
      AllUnambiguous (multiBands factor atrPeriod (candles.map ExactCandle.floats))) ∧
    (multiBands factor atrPeriod (candles.map ExactCandle.floats)).IsChain
      fun b b' => b.KeepsActive b' ∨ b.InCrossed := by
  have hatrs := isFinite_multiAtr hperiod candles
  unfold multiBands
  rw [← List.map_drop]
  cases candles.drop (atrPeriod - 1) with
  | nil => exact ⟨⟨fun _ => trivial, fun _ => rfl⟩, List.isChain_nil⟩
  | cons c rest =>
    cases hatr : (multiAtr atrPeriod (candles.map ExactCandle.floats)).drop (atrPeriod - 1) with
    | nil => exact ⟨⟨fun _ => trivial, fun _ => rfl⟩, List.isChain_nil⟩
    | cons atr atrs =>
      rw [hatr] at hatrs
      have hsound := sound_first factor c (hatrs atr List.mem_cons_self)
      have hrest : ∀ a ∈ atrs, a.isFinite = true := fun a ha => hatrs a (List.mem_cons_of_mem _ ha)
      have hloop := recursed_iff factor hsound rest hrest
      refine ⟨?_, isChain_multiBandsLoop factor hsound rest hrest⟩
      rw [List.map_cons]
      show _ :: _ = _ :: _ ↔ _
      rw [List.cons.injEq]
      exact ⟨fun h => hloop.mp h.2, fun h => ⟨rfl, hloop.mpr h⟩⟩

/-- Over a series without an ambiguous bar the directions of `compute_supertrend_multi` are those of the
recursion over the same bands; in every series the active band of a direction loosens only after a bar
that has closed between crossed bands. -/
theorem multiDirections_recursed (factor : ℚ) {atrPeriod : ℕ} (hperiod : 2 ≤ atrPeriod)
    (candles : List ExactCandle) :
    (AllUnambiguous (multiBands factor atrPeriod (candles.map ExactCandle.floats)) →
      multiDirections factor atrPeriod (candles.map ExactCandle.floats) =
        List.replicate (min (atrPeriod - 1) candles.length) 0 ++
          recursedDirections (multiBands factor atrPeriod (candles.map ExactCandle.floats))) ∧
    (multiBands factor atrPeriod (candles.map ExactCandle.floats)).IsChain
      fun b b' => b.direction = b'.direction → b.KeepsActive b' ∨ b.InCrossed := by
  have hcases := multiBands_cases factor hperiod candles
  refine ⟨fun hclear => ?_, hcases.2.imp fun b b' h _ => h⟩
  rw [multiDirections_eq, List.length_map, hcases.1.mpr hclear]

/-- Ten quiet candles, a jump, and a quiet candle. -/
def jump : List ExactCandle :=
  List.replicate 10 ⟨100, 101, 99, 100, 0⟩ ++ [⟨110, 150, 110, 111, 0⟩, ⟨111, 112, 110, 111, 0⟩]

/-- Three candles; with a factor of zero their bands coincide. -/
def narrow : List ExactCandle := [⟨10, 10, 10, 10, 0⟩, ⟨11, 12, 8, 11, 0⟩, ⟨10, 11, 9, 10, 0⟩]

theorem jump_multiDirections_recursed :
    multiDirections (.fin (5 / 2)) 10 (jump.map ExactCandle.floats) =
      List.replicate 9 0 ++
        recursedDirections (multiBands (.fin (5 / 2)) 10 (jump.map ExactCandle.floats)) :=
  (multiDirections_recursed (5 / 2) (by decide) jump).1 (by decide +kernel)

/-- An uptrend whose bands coincide is misread; and after the jump the lower band falls from 113 to 95.2
while the uptrend persists. -/
theorem bands_misread_and_loosened :
    (∀ c ∈ narrow, c.WellFormed) ∧
    multiDirections (.fin 0) 2 (narrow.map ExactCandle.floats) = [0, -1, 1] ∧
    recursedDirections (multiBands (.fin 0) 2 (narrow.map ExactCandle.floats)) = [-1, -1] ∧
    (∀ c ∈ jump, c.WellFormed) ∧
    (multiBands (.fin (5 / 2)) 10 (jump.map ExactCandle.floats)).map direction = [1, -1, -1] ∧
    (multiBands (.fin (5 / 2)) 10 (jump.map ExactCandle.floats)).map MultiBands.lower =
      [.fin 95, .fin 113, .fin (476 / 5)] := by decide +kernel

end PaperTrade.Runner
