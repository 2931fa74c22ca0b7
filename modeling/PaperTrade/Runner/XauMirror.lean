import PaperTrade.Runner.XauIndicators

/-!
# The entries of `XauM30RunnerStrategy` are mirror symmetric

When all prices are reflected at one price, the averages are reflected, the RSI `r` becomes `100 - r`, and
the ATR stays. Every condition of `_matches` then asks of the other side what it asked of the one before,
so `_entry_side` answers with the other side.

The preset that goes long only is left out: the reflection of an entry is one that it does not consider.
-/

namespace PaperTrade.Runner

open PaperTrade.Runtime ExactCandle

namespace XauM30

/-! ## Reflected series -/

section Columns

variable (p : ℚ) (s : List ExactCandle)

lemma opens_mirror : opens (s.map (mirror p)) = (opens s).map (2 * p - ·) := by
  simp only [opens, List.map_map]
  rfl

lemma highs_mirror : highs (s.map (mirror p)) = (lows s).map (2 * p - ·) := by
  simp only [highs, lows, List.map_map]
  rfl

lemma lows_mirror : lows (s.map (mirror p)) = (highs s).map (2 * p - ·) := by
  simp only [highs, lows, List.map_map]
  rfl

lemma closes_mirror : closes (s.map (mirror p)) = (closes s).map (2 * p - ·) := by
  simp only [closes, List.map_map]
  rfl

end Columns

lemma slice_map (f : ℚ → ℚ) (values : List ℚ) (a b : ℕ) :
    slice (values.map f) a b = (slice values a b).map f := by
  rw [slice, slice, ← List.map_take, ← List.map_drop]

lemma greatest_reflect (c : ℚ) {values : List ℚ} (h : values ≠ []) :
    greatest (values.map (c - ·)) = c - least values := by
  have hfold : ∀ (rest : List ℚ) (v : ℚ), (rest.map (c - ·)).foldl max (c - v) = c - rest.foldl min v := by
    intro rest
    induction rest with
    | nil => exact fun v => rfl
    | cons w rest ih =>
      intro v
      rw [List.map_cons, List.foldl_cons, List.foldl_cons, max_sub_sub_left, ih]
  cases values with
  | nil => exact absurd rfl h
  | cons v rest => exact hfold rest v

lemma least_reflect (c : ℚ) {values : List ℚ} (h : values ≠ []) :
    least (values.map (c - ·)) = c - greatest values := by
  have hfold : ∀ (rest : List ℚ) (v : ℚ), (rest.map (c - ·)).foldl min (c - v) = c - rest.foldl max v := by
    intro rest
    induction rest with
    | nil => exact fun v => rfl
    | cons w rest ih =>
      intro v
      rw [List.map_cons, List.foldl_cons, List.foldl_cons, min_sub_sub_left, ih]
  cases values with
  | nil => exact absurd rfl h
  | cons v rest => exact hfold rest v

/-! ## Reflected indicators -/

lemma ema_reflect (c : ℚ) (values : List ℚ) (period : ℕ) :
    ema (values.map (c - ·)) period = (ema values period).map (c - ·) := expAverages_reflect _ _ _

/-- The gains of a reflected series are its losses. -/
lemma moves_reflect (c : ℚ) {part part' : ℚ → ℚ} (h : ∀ a b, part (b - a) = part' (a - b))
    (values : List ℚ) : moves part (values.map (c - ·)) = moves part' values := by
  rw [moves, moves, ← List.map_tail, List.zipWith_map]
  refine congrArg _ (congrArg (fun f => List.zipWith f values values.tail) ?_)
  funext previous current
  rw [sub_sub_sub_cancel_left, h]

lemma rsiValue_swap {g l : ℚ} (hg : 0 ≤ g) (hl : 0 ≤ l) : rsiValue l g = 100 - rsiValue g l := by
  unfold rsiValue
  rcases hg.eq_or_lt with rfl | hg
  · rcases hl.eq_or_lt with rfl | hl
    · norm_num
    · rw [if_pos rfl, if_pos hl, if_neg hl.ne', zero_div, add_zero, div_one, sub_self, sub_zero]
  · rcases hl.eq_or_lt with rfl | hl
    · rw [if_neg hg.ne', if_pos rfl, if_pos hg, zero_div, add_zero, div_one]
    · rw [if_neg hg.ne', if_neg hl.ne']
      have hsum : g + l ≠ 0 := (add_pos hg hl).ne'
      field_simp
      ring

lemma zipWith_rsiValue_swap {gs ls : List ℚ} (hgs : ∀ g ∈ gs, 0 ≤ g) (hls : ∀ l ∈ ls, 0 ≤ l) :
    List.zipWith rsiValue ls gs = (List.zipWith rsiValue gs ls).map (100 - ·) := by
  induction gs generalizing ls with
  | nil => cases ls <;> rfl
  | cons g gs ih =>
    cases ls with
    | nil => rfl
    | cons l ls =>
      rw [List.zipWith_cons_cons, List.zipWith_cons_cons, List.map_cons,
        rsiValue_swap (hgs g List.mem_cons_self) (hls l List.mem_cons_self),
        ih (fun g hg => hgs g (List.mem_cons_of_mem _ hg)) (fun l hl => hls l (List.mem_cons_of_mem _ hl))]

lemma rsiValues_reflect (c : ℚ) (values : List ℚ) :
    rsiValues (values.map (c - ·)) = (rsiValues values).map (100 - ·) := by
  have hgains : gains (values.map (c - ·)) = losses values :=
    moves_reflect c (fun a b => (neg_sub a b).symm) values
  have hlosses : losses (values.map (c - ·)) = gains values :=
    moves_reflect c (fun a b => neg_sub b a) values
  unfold rsiValues
  rw [List.length_map]
  split
  · rw [List.map_replicate]
    norm_num
  · rw [hgains, hlosses]
    exact zipWith_rsiValue_swap (averages_nonneg (moves_nonneg _ _)) (averages_nonneg (moves_nonneg _ _))

lemma rangeAfter_mirror (p : ℚ) (previous c : ExactCandle) :
    rangeAfter (previous.mirror p) (c.mirror p) = rangeAfter previous c := by
  have hrange : 2 * p - c.low - (2 * p - c.high) = c.high - c.low := sub_sub_sub_cancel_left _ _ _
  have hhigh : |2 * p - c.low - (2 * p - previous.close)| = |c.low - previous.close| := by
    rw [sub_sub_sub_cancel_left, abs_sub_comm]
  have hlow : |2 * p - c.high - (2 * p - previous.close)| = |c.high - previous.close| := by
    rw [sub_sub_sub_cancel_left, abs_sub_comm]
  show max (max (2 * p - c.low - (2 * p - c.high)) |2 * p - c.low - (2 * p - previous.close)|)
    |2 * p - c.high - (2 * p - previous.close)| = _
  rw [hrange, hhigh, hlow, max_right_comm]
  rfl

lemma ranges_mirror (p : ℚ) (s : List ExactCandle) : ranges (s.map (mirror p)) = ranges s := by
  cases s with
  | nil => rfl
  | cons c rest =>
    have hrest : List.zipWith rangeAfter ((c :: rest).map (mirror p)) (rest.map (mirror p)) =
        List.zipWith rangeAfter (c :: rest) rest := by
      rw [List.zipWith_map]
      exact congrArg (fun f => List.zipWith f (c :: rest) rest)
        (funext₂ fun previous c => rangeAfter_mirror p previous c)
    have hfirst : 2 * p - c.low - (2 * p - c.high) = c.high - c.low := sub_sub_sub_cancel_left _ _ _
    show (2 * p - c.low - (2 * p - c.high)) :: _ = _
    rw [hfirst]
    exact congrArg _ hrest

lemma atrValues_mirror (p : ℚ) (s : List ExactCandle) : atrValues (s.map (mirror p)) = atrValues s := by
  rw [atrValues, atrValues, ranges_mirror]

/-! ## Reflected conditions -/

/-- The indicators of the reflected series. -/
def Indicators.mirror (c : ℚ) (v : Indicators) : Indicators where
  e9 := v.e9.map (c - ·)
  e21 := v.e21.map (c - ·)
  e50 := v.e50.map (c - ·)
  rsi := v.rsi.map (100 - ·)
  atr := v.atr

/-- Every indicator has a value for every candle. -/
structure Indicators.Fits (v : Indicators) (s : List ExactCandle) : Prop where
  e9 : v.e9.length = s.length
  e21 : v.e21.length = s.length
  e50 : v.e50.length = s.length
  rsi : v.rsi.length = s.length

section Conditions

variable {s : List ExactCandle} {v : Indicators} {k : ℕ}

section Values

variable (p : ℚ) (hk : k < s.length)
include hk

lemma val_opens_mirror : val (opens (s.map (mirror p))) k = 2 * p - val (opens s) k := by
  rw [opens_mirror, val_map (by rwa [length_opens])]

lemma val_highs_mirror : val (highs (s.map (mirror p))) k = 2 * p - val (lows s) k := by
  rw [highs_mirror, val_map (by rwa [length_lows])]

lemma val_lows_mirror : val (lows (s.map (mirror p))) k = 2 * p - val (highs s) k := by
  rw [lows_mirror, val_map (by rwa [length_highs])]

lemma val_closes_mirror : val (closes (s.map (mirror p))) k = 2 * p - val (closes s) k := by
  rw [closes_mirror, val_map (by rwa [length_closes])]

variable (h : v.Fits s)
include h

lemma val_e9_mirror : val (v.mirror (2 * p)).e9 k = 2 * p - val v.e9 k := val_map (by rwa [h.e9])

lemma val_e21_mirror : val (v.mirror (2 * p)).e21 k = 2 * p - val v.e21 k := val_map (by rwa [h.e21])

lemma val_e50_mirror : val (v.mirror (2 * p)).e50 k = 2 * p - val v.e50 k := val_map (by rwa [h.e50])

lemma val_rsi_mirror : val (v.mirror (2 * p)).rsi k = 100 - val v.rsi k := val_map (by rwa [h.rsi])

end Values

variable {p : ℚ} {i : ℕ} (h : v.Fits s) (hi : i < s.length) (side : Side)
include h hi

lemma aligned_mirror :
    aligned (s.map (mirror p)) (v.mirror (2 * p)) i side.swap = aligned s v i side := by
  cases side <;> simp (disch := omega) only [aligned, Side.swap, val_e9_mirror p _ h, val_e21_mirror p _ h,
    val_e50_mirror p _ h, val_closes_mirror p, sub_lt_sub_iff_left]

lemma slopes_mirror : slopes (v.mirror (2 * p)) i side.swap = slopes v i side := by
  cases side <;> simp (disch := omega) only [slopes, Side.swap, val_e21_mirror p _ h,
    val_e50_mirror p _ h, sub_lt_sub_iff_left]

lemma slope50_mirror : slope50 (v.mirror (2 * p)) i side.swap = slope50 v i side := by
  cases side <;> simp (disch := omega) only [slope50, Side.swap, val_e50_mirror p _ h,
    sub_lt_sub_iff_left]

lemma trend_mirror (x : XauM30) :
    x.trend (s.map (mirror p)) (v.mirror (2 * p)) i side.swap = x.trend s v i side := by
  simp only [trend, aligned_mirror h hi, slopes_mirror h hi, slope50_mirror h hi]

lemma breaksBar_mirror :
    breaksBar (s.map (mirror p)) (v.mirror (2 * p)) i side.swap = breaksBar s v i side := by
  cases side <;> simp (disch := omega) only [breaksBar, Side.swap, val_e9_mirror p _ h,
    val_highs_mirror p, val_lows_mirror p, val_closes_mirror p, sub_lt_sub_iff_left]

lemma trend12_mirror : trend12 (v.mirror (2 * p)) i side.swap = trend12 v i side := by
  cases side <;> simp (disch := omega) only [trend12, Side.swap, val_e21_mirror p _ h,
    val_e50_mirror p _ h, sub_lt_sub_iff_left]

lemma trend11_mirror : trend11 (v.mirror (2 * p)) i side.swap = trend11 v i side := by
  cases side <;> simp (disch := omega) only [trend11, Side.swap, val_e9_mirror p _ h,
    val_e21_mirror p _ h, val_e50_mirror p _ h, sub_lt_sub_iff_left]

lemma touched11_mirror :
    touched11 (s.map (mirror p)) (v.mirror (2 * p)) i side.swap = touched11 s v i side := by
  cases side <;> simp (disch := omega) only [touched11, Side.swap, val_e21_mirror p _ h,
    val_highs_mirror p, val_lows_mirror p, sub_le_sub_iff_left]

lemma reclaim_mirror :
    reclaim (s.map (mirror p)) (v.mirror (2 * p)) i side.swap = reclaim s v i side := by
  cases side <;> simp (disch := omega) only [reclaim, Side.swap, val_e9_mirror p _ h,
    val_highs_mirror p, val_lows_mirror p, val_closes_mirror p, sub_lt_sub_iff_left]

lemma touched_mirror :
    touched (s.map (mirror p)) (v.mirror (2 * p)) i side.swap = touched s v i side := by
  cases side <;> simp (disch := omega) only [touched, Side.swap, val_e9_mirror p _ h,
    val_e21_mirror p _ h, val_highs_mirror p, val_lows_mirror p, max_sub_sub_left, min_sub_sub_left,
    sub_le_sub_iff_left]

lemma green_mirror :
    green (s.map (mirror p)) (v.mirror (2 * p)) i side.swap = green s v i side := by
  cases side <;> simp (disch := omega) only [green, Side.swap, val_e9_mirror p _ h,
    val_opens_mirror p, val_closes_mirror p, sub_lt_sub_iff_left]

lemma rsiTurned_mirror : rsiTurned (v.mirror (2 * p)) i side.swap = rsiTurned v i side := by
  cases side <;> simp (disch := omega) only [rsiTurned, Side.swap, val_rsi_mirror p _ h,
    sub_lt_sub_iff_left]

/-- The RSI zones of the sides are reflected at 50. -/
lemma rsiOk_mirror : rsiOk (v.mirror (2 * p)) i side.swap = rsiOk v i side := by
  have hrsi : val (v.mirror (2 * p)).rsi i = 100 - val v.rsi i := val_rsi_mirror p hi h
  cases side with
  | long =>
    rw [Side.swap, rsiOk, rsiOk, hrsi]
    exact decide_eq_decide.mpr ⟨fun h => And.intro (by linarith [h.2]) (by linarith [h.1]),
      fun h => And.intro (by linarith [h.2]) (by linarith [h.1])⟩
  | short =>
    rw [Side.swap, rsiOk, rsiOk, hrsi]
    exact decide_eq_decide.mpr ⟨fun h => And.intro (by linarith [h.2]) (by linarith [h.1]),
      fun h => And.intro (by linarith [h.2]) (by linarith [h.1])⟩

omit h in
lemma impulse_mirror :
    impulse (s.map (mirror p)) (v.mirror (2 * p)) i = impulse s v i := by
  rw [impulse, impulse, val_highs_mirror p hi, val_lows_mirror p hi, sub_sub_sub_cancel_left]
  rfl

omit h in
lemma bodied_mirror : bodied (s.map (mirror p)) i side.swap = bodied s i side := by
  cases side <;> simp (disch := omega) only [bodied, Side.swap, val_opens_mirror p,
    val_closes_mirror p, sub_lt_sub_iff_left]

omit h in
lemma breakout_mirror (hpos : 0 < i) :
    breakout (s.map (mirror p)) i side.swap = breakout s i side := by
  have hne : ∀ values : List ℚ, values.length = s.length → slice values (i - 20) i ≠ [] := by
    intro values hlen
    refine List.ne_nil_of_length_pos ?_
    rw [slice, List.length_drop, List.length_take, hlen]
    omega
  cases side with
  | long =>
    rw [Side.swap, breakout, breakout, lows_mirror, slice_map, least_reflect _ (hne _ (length_highs s)),
      val_closes_mirror p hi]
    exact decide_eq_decide.mpr (sub_lt_sub_iff_left _)
  | short =>
    rw [Side.swap, breakout, breakout, highs_mirror, slice_map, greatest_reflect _ (hne _ (length_lows s)),
      val_closes_mirror p hi]
    exact decide_eq_decide.mpr (sub_lt_sub_iff_left _)

end Conditions

lemma inZone_mirror (x : XauM30) (side : Side) (r : ℚ) :
    x.inZone side.swap (100 - r) = x.inZone side r := by
  unfold inZone rsiZone
  refine decide_eq_decide.mpr ?_
  by_cases hfive : x.preset.number = 5
  · cases side with
    | long =>
      rw [if_neg (by simp [Side.swap]), if_pos hfive, if_pos ⟨hfive, rfl⟩]
      exact ⟨fun h => And.intro (by linarith [h.2]) (by linarith [h.1]),
        fun h => And.intro (by linarith [h.2]) (by linarith [h.1])⟩
    | short =>
      rw [if_pos ⟨hfive, rfl⟩, if_neg (by simp), if_pos hfive]
      exact ⟨fun h => And.intro (by linarith [h.2]) (by linarith [h.1]),
        fun h => And.intro (by linarith [h.2]) (by linarith [h.1])⟩
  · rw [if_neg fun h => hfive h.1, if_neg hfive, if_neg fun h => hfive h.1]
    exact ⟨fun h => And.intro (by linarith [h.2]) (by linarith [h.1]),
      fun h => And.intro (by linarith [h.2]) (by linarith [h.1])⟩

/-! ## The decision -/

section Decision

variable {s : List ExactCandle} {v : Indicators} {p : ℚ}

lemma matches12_mirror (h : v.Fits s) (side : Side) :
    matches12 (s.map (mirror p)) (v.mirror (2 * p)) (s.length - 1) side.swap =
      matches12 s v (s.length - 1) side := by
  unfold matches12
  rw [List.length_map]
  split
  · rfl
  · have hi : s.length - 1 < s.length := by omega
    rw [trend12_mirror h hi, breakout_mirror hi side (by omega), impulse_mirror hi, bodied_mirror hi]
    rfl

lemma matches11_mirror (h : v.Fits s) (side : Side) :
    matches11 (s.map (mirror p)) (v.mirror (2 * p)) (s.length - 1) side.swap =
      matches11 s v (s.length - 1) side := by
  unfold matches11
  rw [List.length_map]
  split
  · rfl
  · have hi : s.length - 1 < s.length := by omega
    rw [trend11_mirror h hi, touched11_mirror h hi, reclaim_mirror h hi, rsiOk_mirror h hi]
    rfl

lemma matchesSide_mirror (x : XauM30) (h : v.Fits s) (hs : 0 < s.length) (side : Side) :
    x.matchesSide (s.map (mirror p)) (v.mirror (2 * p)) side.swap = x.matchesSide s v side := by
  have hi : s.length - 1 < s.length := by omega
  have hrsi (k : ℕ) : val (v.mirror (2 * p)).rsi (s.length - 1 - k) =
      100 - val v.rsi (s.length - 1 - k) := val_rsi_mirror p (by omega) h
  have hmiddle : (40 ≤ 100 - val v.rsi (s.length - 1) ∧ 100 - val v.rsi (s.length - 1) ≤ 60) ↔
      (40 ≤ val v.rsi (s.length - 1) ∧ val v.rsi (s.length - 1) ≤ 60) :=
    ⟨fun h => And.intro (by linarith [h.2]) (by linarith [h.1]),
      fun h => And.intro (by linarith [h.2]) (by linarith [h.1])⟩
  unfold matchesSide
  dsimp only
  rw [List.length_map, trend_mirror h hi, breaksBar_mirror h hi, touched_mirror h hi, green_mirror h hi,
    rsiTurned_mirror h hi, matches12_mirror h, matches11_mirror h, hrsi 1, hrsi 2, inZone_mirror,
    inZone_mirror, ← Nat.sub_zero (s.length - 1), hrsi 0, Nat.sub_zero, decide_eq_decide.mpr hmiddle]

end Decision

/-- `_macro_side` answers with the other side. -/
lemma macroSide_mirror (p : ℚ) (h4 : List ExactCandle) :
    macroSide (h4.map (mirror p)) = (macroSide h4).map Side.swap := by
  unfold macroSide
  dsimp only
  rw [List.length_map, closes_mirror, ema_reflect, ema_reflect, ema_reflect]
  by_cases hfew : h4.length < 54
  · rw [if_pos hfew, if_pos hfew]
    rfl
  · rw [if_neg hfew, if_neg hfew]
    have hlast : h4.length - 1 < (closes h4).length := by
      rw [length_closes]
      omega
    have hema (period : ℕ) : val ((ema (closes h4) period).map (2 * p - ·)) (h4.length - 1) =
        2 * p - val (ema (closes h4) period) (h4.length - 1) := val_map (by rwa [length_ema])
    have hold : val ((ema (closes h4) 50).map (2 * p - ·)) (h4.length - 4) =
        2 * p - val (ema (closes h4) 50) (h4.length - 4) := by
      refine val_map ?_
      rw [length_ema, length_closes]
      omega
    rw [hema 9, hema 21, hema 50, hold, val_map hlast]
    simp only [sub_lt_sub_iff_left]
    split
    · -- a falling trend is no rising one
      rename_i hshort
      rw [if_neg fun hlong => absurd hlong.1.1 hshort.1.1.asymm]
      rfl
    · split <;> rfl

lemma indicators_fit (s : List ExactCandle) : (indicators s).Fits s where
  e9 := by rw [indicators, length_ema, length_closes]
  e21 := by rw [indicators, length_ema, length_closes]
  e50 := by rw [indicators, length_ema, length_closes]
  rsi := by rw [indicators, length_rsiValues, length_closes]

lemma indicators_mirror (p : ℚ) (s : List ExactCandle) :
    indicators (s.map (mirror p)) = (indicators s).mirror (2 * p) := by
  simp only [indicators, Indicators.mirror, closes_mirror, ema_reflect, rsiValues_reflect,
    atrValues_mirror]

/-- On reflected candles the presets that trade both sides take the other side, and raise where they
raised. -/
theorem entrySide_mirror (x : XauM30) (hboth : x.preset.longOnly = false) (p : ℚ)
    (s h4 : List ExactCandle) (hlen : 80 ≤ s.length) :
    x.entrySide (s.map (mirror p)) (h4.map (mirror p)) = (x.entrySide s h4).map (Option.map Side.swap) := by
  rw [entrySide_gated hboth, entrySide_gated hboth, atrValues_mirror, List.length_map, indicators_mirror,
    macroSide_mirror]
  split
  · rfl
  · cases macroSide h4 with
    | none => rfl
    | some side =>
      dsimp only [Option.map_some]
      rw [matchesSide_mirror x (indicators_fit s) (by omega)]
      cases x.matchesSide s (indicators s) side with
      | error e => rfl
      | ok b => cases b <;> rfl

/-! ## A rise and its reflection -/

/-- Candles that each rise by one. -/
def rising (n : ℕ) : List ExactCandle :=
  (List.range n).map fun (k : ℕ) => ⟨2000 + k, 2001 + k, 2000 + k, 2001 + k, m30Ms * k⟩

/-- Alpha 6. -/
def breakerXau : XauM30 where
  alphaId := "xau"
  version := "6"
  preset := { number := 6, maxPositions := 1, rr := 2, pureAtrStop := false, sessionGated := true,
              macroGated := true }
  known := by decide

/-- A rise is bought, so its reflection at 2000 is sold. -/
theorem rising_entrySide_mirror :
    breakerXau.entrySide ((rising 80).map (mirror 2000)) ((rising 54).map (mirror 2000)) =
      .ok (some .short) :=
  (entrySide_mirror breakerXau rfl 2000 (rising 80) (rising 54) (by decide)).trans <| by
    have hlong : (breakerXau.entrySide (rising 80) (rising 54)).toOption = some (some .long) := by
      decide +kernel
    cases hside : breakerXau.entrySide (rising 80) (rising 54) with
    | error e =>
      rw [hside] at hlong
      cases hlong
    | ok side =>
      rw [hside] at hlong
      cases hlong
      rfl

end XauM30

end PaperTrade.Runner
