import PaperTrade.Runner.ExactCandle
import PaperTrade.Runner.SmoothCycle

/-!
# The chandelier of `SmoothChanRunnerStrategy`

What `_manage_exits` does to one position from bar to bar. While the position is held its watermark is
the running extreme of the entry and the bars, and the level of the chandelier never moves away from the
price: a better watermark means more profit, and more profit a smaller multiplier.

The watermark is read as `position.get("wm") or entry`, so a watermark of zero is taken for a missing
one. A long position has none, a short one has it after a bar whose low is zero.
-/

namespace PaperTrade.Runner

open PaperTrade.Runtime

/-! ## A multiplier that shrinks with the profit -/

/-- The share of the way from the first multiplier to the least one. -/
def shrinkRatio (scale profit : ℚ) : ℚ := if 0 < scale then min 1 (max 0 (profit / scale)) else 0

/-- The multiplier at a profit. -/
def shrinkingMultiplier (start least scale profit : ℚ) : ℚ :=
  start - (start - least) * shrinkRatio scale profit

lemma shrinkRatio_mono (scale : ℚ) : Monotone (shrinkRatio scale) := by
  intro profit profit' h
  unfold shrinkRatio
  split
  · rename_i hscale
    have hdiv : profit / scale ≤ profit' / scale := div_le_div_of_nonneg_right h hscale.le
    exact min_le_min_left 1 (max_le_max_left 0 hdiv)
  · exact le_rfl

lemma shrinkingMultiplier_antitone {start least : ℚ} (h : least ≤ start) (scale : ℚ) :
    Antitone (shrinkingMultiplier start least scale) := by
  intro profit profit' hle
  have hspan : 0 ≤ start - least := sub_nonneg.mpr h
  exact sub_le_sub_left (mul_le_mul_of_nonneg_left (shrinkRatio_mono scale hle) hspan) start

/-- The level below a long position. -/
def longLevel (multiplier : ℚ → ℚ) (entry atr wm : ℚ) : ℚ := wm - multiplier ((wm - entry) / entry) * atr

/-- The level above a short position. -/
def shortLevel (multiplier : ℚ → ℚ) (entry atr wm : ℚ) : ℚ := wm + multiplier ((entry - wm) / entry) * atr

lemma longLevel_mono {multiplier : ℚ → ℚ} (hm : Antitone multiplier) {entry atr : ℚ} (he : 0 < entry)
    (ha : 0 ≤ atr) : Monotone (longLevel multiplier entry atr) := by
  intro wm wm' h
  have hprofit : (wm - entry) / entry ≤ (wm' - entry) / entry :=
    div_le_div_of_nonneg_right (sub_le_sub_right h entry) he.le
  exact sub_le_sub h (mul_le_mul_of_nonneg_right (hm hprofit) ha)

lemma shortLevel_mono {multiplier : ℚ → ℚ} (hm : Antitone multiplier) {entry atr : ℚ} (he : 0 < entry)
    (ha : 0 ≤ atr) : Monotone (shortLevel multiplier entry atr) := by
  intro wm wm' h
  have hprofit : (entry - wm') / entry ≤ (entry - wm) / entry :=
    div_le_div_of_nonneg_right (sub_le_sub_left h entry) he.le
  exact add_le_add h (mul_le_mul_of_nonneg_right (hm hprofit) ha)

namespace SmoothChan

variable (x : SmoothChan)

/-! ## One bar -/

/-- `_manage_exits` on a position that it does not close. -/
def managedBar (p : SmoothPosition) (c : Candle) : Option SmoothPosition :=
  match x.exitReason p c with
  | some _ => none
  | none => some (withWatermark c (x.withBreakeven c p))

/-- The position after the bars, as long as none of them closes it. -/
def heldAfter (p : SmoothPosition) (bars : List ExactCandle) : Option SmoothPosition :=
  bars.foldl (fun q c => q.bind fun q => x.managedBar q c.floats) (some p)

/-- The level of the chandelier, `cs` of `_manage_exits`. -/
def level (p : SmoothPosition) : PyFloat :=
  if p.side = "LONG" then wmOf p - x.chanMult p * entryAtrOf p else wmOf p + x.chanMult p * entryAtrOf p

lemma chandelierHit_eq (p : SmoothPosition) (c : Candle) :
    x.chandelierHit p c = (!x.flipOnly && decide (0 < entryAtrOf p) &&
      (if p.side = "LONG" then decide (p.entry < x.level p) && decide (c.low ≤ x.level p)
      else decide (x.level p < p.entry) && decide (x.level p ≤ c.high))) := by
  unfold chandelierHit level
  by_cases hside : p.side = "LONG" <;> simp [hside]

lemma heldAfter_snoc (p : SmoothPosition) (bars : List ExactCandle) (c : ExactCandle) :
    x.heldAfter p (bars ++ [c]) = (x.heldAfter p bars).bind fun q => x.managedBar q c.floats := by
  rw [heldAfter, List.foldl_append]
  rfl

/-- The only position of the book goes from bar to bar. -/
lemma rows_managed {s : SmoothState} {p : SmoothPosition} (h : s.positions.rows = [p]) (c : Candle)
    (price : PyFloat) : (x.managed c price s).2.positions.rows = (x.managedBar p c).toList := by
  have hfirst : existingPosition s = some p := by rw [existingPosition, h]; rfl
  unfold managed managedBar
  rw [hfirst]
  dsimp only
  cases x.exitReason p c with
  | some reason => exact rows_erase_singleton h
  | none =>
    exact rows_modify_singleton (positionId_withWatermark c)
      (rows_modify_singleton (x.positionId_withBreakeven c) h)

/-- The exit of a bar is decided by the position and the high and the low of the bar. -/
lemma exitReason_congr (p : SmoothPosition) {c c' : Candle} (hhigh : c.high = c'.high)
    (hlow : c.low = c'.low) : x.exitReason p c = x.exitReason p c' := by
  unfold exitReason stopHit chandelierHit breakevenHit
  rw [hhigh, hlow]

/-! ## The admitted configurations -/

/-- The constructor admits the configuration, and its numbers are finite. -/
structure Admitted where
  start : ℚ
  least : ℚ
  scale : ℚ
  chanStart : x.chanStart = start
  chanMin : x.chanMin = least
  scalePct : x.scalePct = scale
  least_le_start : least ≤ start
  scale_nonneg : 0 ≤ scale

/-- A position as it is opened, with finite numbers. -/
structure Opened (p : SmoothPosition) (entry atr : ℚ) : Prop where
  side : p.side = "LONG" ∨ p.side = "SHORT"
  entry_eq : p.entry = entry
  entryAtr_eq : p.entryAtr = some (atr : PyFloat)
  wm_eq : p.wm = some (entry : PyFloat)
  entry_pos : 0 < entry
  atr_pos : 0 < atr

/-- The running extreme of the entry and the bars. -/
def extreme (side : String) (entry : ℚ) (bars : List ExactCandle) : ℚ :=
  if side = "LONG" then bars.foldl (fun m c => max m c.high) entry
  else bars.foldl (fun m c => min m c.low) entry

/-- A level that is not farther from the price than the old one. -/
def NotLooser (side : String) (old new : PyFloat) : Prop :=
  if side = "LONG" then old ≤ new else new ≤ old

instance (side : String) (old new : PyFloat) : Decidable (NotLooser side old new) :=
  inferInstanceAs (Decidable (if side = "LONG" then old ≤ new else new ≤ old))

/-- What is left of an opened position after some bars: `m` is its watermark. -/
structure Trails (p : SmoothPosition) (entry atr : ℚ) (m : ℚ) (q : SmoothPosition) : Prop where
  side_eq : q.side = p.side
  entry_eq : q.entry = entry
  entryAtr_eq : q.entryAtr = some (atr : PyFloat)
  wm_eq : wmOf q = m

variable {x} {p q : SmoothPosition} {entry atr m : ℚ}

lemma wmOf_of_ne_zero {w : ℚ} (h : q.wm = some (w : PyFloat)) (hw : w ≠ 0) : wmOf q = w := by
  rw [wmOf, orDefault, h]
  simp [Option.filter, hw]

lemma entryAtrOf_eq (h : q.entryAtr = some (atr : PyFloat)) (hatr : 0 < atr) : entryAtrOf q = atr := by
  rw [entryAtrOf, orDefault, h]
  simp [Option.filter, hatr.ne']

/-- The multiplier of a position, in numbers. -/
lemma chanMult_eq (a : x.Admitted) (hp : Opened p entry atr) (hq : Trails p entry atr m q) :
    x.chanMult q = .fin (shrinkingMultiplier a.start a.least a.scale
      ((if p.side = "LONG" then m - entry else entry - m) / entry)) := by
  have hentry : entry ≠ 0 := hp.entry_pos.ne'
  have hprofit : (if q.entry.truthy = true then
      (if q.side = "LONG" then wmOf q - q.entry else q.entry - wmOf q) / q.entry else 0) =
      .fin ((if p.side = "LONG" then m - entry else entry - m) / entry) := by
    rw [hq.side_eq, hq.entry_eq, hq.wm_eq, PyFloat.truthy_fin, if_pos (decide_eq_true hentry),
      PyFloat.sub_fin, PyFloat.sub_fin, ← apply_ite PyFloat.fin, PyFloat.div_fin _ hentry]
  unfold chanMult
  dsimp only
  rw [hprofit, a.chanStart, a.chanMin, a.scalePct]
  unfold shrinkingMultiplier shrinkRatio
  simp only [PyFloat.zero_eq, PyFloat.one_eq, PyFloat.fin_lt_fin]
  split
  · rename_i hscale
    rw [PyFloat.div_fin _ hscale.ne', PyFloat.max_fin, PyFloat.min_fin, PyFloat.sub_fin,
      PyFloat.mul_fin, PyFloat.sub_fin]
  · rw [PyFloat.sub_fin, PyFloat.mul_fin, PyFloat.sub_fin]

/-- The level of a position, in numbers. -/
lemma level_eq (a : x.Admitted) (hp : Opened p entry atr) (hq : Trails p entry atr m q) :
    x.level q = .fin (if p.side = "LONG" then
        longLevel (shrinkingMultiplier a.start a.least a.scale) entry atr m
      else shortLevel (shrinkingMultiplier a.start a.least a.scale) entry atr m) := by
  unfold level
  rw [hq.side_eq, hq.wm_eq, chanMult_eq a hp hq, entryAtrOf_eq hq.entryAtr_eq hp.atr_pos]
  by_cases hside : p.side = "LONG"
  · rw [if_pos hside, if_pos hside, if_pos hside, PyFloat.mul_fin, PyFloat.sub_fin, longLevel]
  · rw [if_neg hside, if_neg hside, if_neg hside, PyFloat.mul_fin, PyFloat.add_fin, shortLevel]

/-! ## From bar to bar -/

/-- The extreme of one more bar. -/
def further (side : String) (m : ℚ) (c : ExactCandle) : ℚ :=
  if side = "LONG" then max m c.high else min m c.low

lemma extreme_snoc (side : String) (entry : ℚ) (bars : List ExactCandle) (c : ExactCandle) :
    extreme side entry (bars ++ [c]) = further side (extreme side entry bars) c := by
  unfold extreme further
  by_cases hside : side = "LONG"
  · simp only [if_pos hside, List.foldl_append, List.foldl_cons, List.foldl_nil]
  · simp only [if_neg hside, List.foldl_append, List.foldl_cons, List.foldl_nil]

/-- A long position has a watermark of at least its entry. -/
lemma le_extreme (entry : ℚ) (bars : List ExactCandle) : entry ≤ extreme "LONG" entry bars := by
  induction bars using List.reverseRecOn with
  | nil => exact le_rfl
  | append_singleton bars c ih =>
    rw [extreme_snoc]
    exact ih.trans (le_max_left _ _)

lemma Trails.withBreakeven (hq : Trails p entry atr m q) (c : Candle) :
    Trails p entry atr m (x.withBreakeven c q) := ⟨hq.side_eq, hq.entry_eq, hq.entryAtr_eq, hq.wm_eq⟩

/-- The watermark follows the bar, unless the new watermark is zero. -/
lemma Trails.withWatermark (hp : Opened p entry atr) (hq : Trails p entry atr m q)
    (hm : p.side = "LONG" → entry ≤ m) {c : ExactCandle} (hlow : p.side = "SHORT" → c.low ≠ 0) :
    Trails p entry atr (further p.side m c) (withWatermark c.floats q) := by
  have hhigher : wmOf q < c.floats.high ↔ m < c.high := by
    rw [hq.wm_eq]
    exact PyFloat.fin_lt_fin m c.high
  have hlower : c.floats.low < wmOf q ↔ c.low < m := by
    rw [hq.wm_eq]
    exact PyFloat.fin_lt_fin c.low m
  unfold SmoothChan.withWatermark
  rcases hp.side with hlong | hshort
  · have hfurther : further p.side m c = max m c.high := if_pos hlong
    have hqside : q.side = "LONG" := hq.side_eq.trans hlong
    have hother : q.side ≠ "SHORT" := by rw [hqside]; decide
    by_cases hhigh : m < c.high
    · have hpos : c.high ≠ 0 := ((hp.entry_pos.trans_le (hm hlong)).trans hhigh).ne'
      rw [if_pos ⟨hqside, hhigher.mpr hhigh⟩, hfurther, max_eq_right hhigh.le]
      exact ⟨hq.side_eq, hq.entry_eq, hq.entryAtr_eq, wmOf_of_ne_zero rfl hpos⟩
    · rw [if_neg fun h => hhigh (hhigher.mp h.2), if_neg fun h => hother h.1, hfurther,
        max_eq_left (not_lt.mp hhigh)]
      exact hq
  · have hlong : p.side ≠ "LONG" := by rw [hshort]; decide
    have hfurther : further p.side m c = min m c.low := if_neg hlong
    have hqside : q.side = "SHORT" := hq.side_eq.trans hshort
    rw [if_neg fun h => hlong (hq.side_eq.symm.trans h.1)]
    by_cases hbelow : c.low < m
    · rw [if_pos ⟨hqside, hlower.mpr hbelow⟩, hfurther, min_eq_right hbelow.le]
      exact ⟨hq.side_eq, hq.entry_eq, hq.entryAtr_eq, wmOf_of_ne_zero rfl (hlow hshort)⟩
    · rw [if_neg fun h => hbelow (hlower.mp h.2), hfurther, min_eq_left (not_lt.mp hbelow)]
      exact hq

lemma be_withWatermark (c : Candle) (q : SmoothPosition) : (SmoothChan.withWatermark c q).be = q.be := by
  unfold SmoothChan.withWatermark
  split
  · rfl
  · split <;> rfl

lemma managedBar_eq_some {c : Candle} {q' : SmoothPosition} (h : x.managedBar q c = some q') :
    q' = SmoothChan.withWatermark c (x.withBreakeven c q) := by
  unfold managedBar at h
  cases hexit : x.exitReason q c with
  | some reason =>
    rw [hexit] at h
    exact nomatch h
  | none =>
    rw [hexit] at h
    exact (Option.some.inj h).symm

/-- The breakeven flag is never reset. -/
lemma be_managedBar {c : Candle} {q' : SmoothPosition} (h : x.managedBar q c = some q')
    (hbe : q.be = true) : q'.be = true := by
  rw [managedBar_eq_some h, be_withWatermark]
  show (q.be || _) = true
  rw [hbe, Bool.true_or]

/-- What a position is after bars that have left it open. -/
lemma trails_heldAfter (hp : Opened p entry atr) {bars : List ExactCandle}
    (hlow : p.side = "SHORT" → ∀ c ∈ bars, c.low ≠ 0) (h : x.heldAfter p bars = some q) :
    Trails p entry atr (extreme p.side entry bars) q := by
  induction bars using List.reverseRecOn generalizing q with
  | nil =>
    have hq : p = q := Option.some.inj h
    have hstart : extreme p.side entry [] = entry := ite_self entry
    rw [← hq, hstart]
    exact ⟨rfl, hp.entry_eq, hp.entryAtr_eq, wmOf_of_ne_zero hp.wm_eq hp.entry_pos.ne'⟩
  | append_singleton bars c ih =>
    rw [heldAfter_snoc] at h
    obtain ⟨q₀, hq₀, hbar⟩ := Option.bind_eq_some_iff.mp h
    have hbefore := ih (fun hside b hb => hlow hside b (List.mem_append_left _ hb)) hq₀
    have hentry : p.side = "LONG" → entry ≤ extreme p.side entry bars := by
      intro hside
      rw [hside]
      exact le_extreme entry bars
    rw [managedBar_eq_some hbar, extreme_snoc]
    exact (hbefore.withBreakeven _).withWatermark hp hentry
      fun hside => hlow hside c (List.mem_append_right _ List.mem_cons_self)

/-- A further extreme has a level that is not farther from the price. -/
lemma notLooser_level (a : x.Admitted) (hp : Opened p entry atr) {q' : SmoothPosition}
    (hq : Trails p entry atr m q) {c : ExactCandle}
    (hq' : Trails p entry atr (further p.side m c) q') : NotLooser p.side (x.level q) (x.level q') := by
  have hmultiplier := shrinkingMultiplier_antitone a.least_le_start a.scale
  unfold NotLooser
  rw [level_eq a hp hq, level_eq a hp hq']
  by_cases hside : p.side = "LONG"
  · have hle : m ≤ further p.side m c := by rw [further, if_pos hside]; exact le_max_left _ _
    simp only [if_pos hside, PyFloat.fin_le_fin]
    exact longLevel_mono hmultiplier hp.entry_pos hp.atr_pos.le hle
  · have hle : further p.side m c ≤ m := by rw [further, if_neg hside]; exact min_le_left _ _
    simp only [if_neg hside, PyFloat.fin_le_fin]
    exact shortLevel_mono hmultiplier hp.entry_pos hp.atr_pos.le hle

/-! ## The law -/

/-- What a position that is held after `bars` has kept, and what one more bar does to it. -/
structure LooksBack (x : SmoothChan) (p : SmoothPosition) (entry : ℚ) (bars : List ExactCandle)
    (q : SmoothPosition) : Prop where
  /-- the watermark is the running extreme of the entry and the bars -/
  watermark : wmOf q = .fin (extreme p.side entry bars)
  /-- the next level is not farther from the price, and the breakeven flag stays -/
  tightens : ∀ c q', x.heldAfter p (bars ++ [c]) = some q' →
    (p.side = "SHORT" → c.low ≠ 0) →
    NotLooser p.side (x.level q) (x.level q') ∧ (q.be = true → q'.be = true)
  /-- the exit of the next bar is decided by the position and the high and the low of that bar -/
  causal : ∀ c c' : Candle, c.high = c'.high → c.low = c'.low → x.exitReason q c = x.exitReason q c'

/-- While no bar of a short position has the low zero, the chandelier of a held position only looks back
and never loosens. -/
theorem chandelier_looks_back (a : x.Admitted) (hp : Opened p entry atr) (bars : List ExactCandle)
    (hlow : p.side = "SHORT" → ∀ c ∈ bars, c.low ≠ 0) (hq : x.heldAfter p bars = some q) :
    LooksBack x p entry bars q := by
  have htrails := trails_heldAfter hp hlow hq
  refine ⟨htrails.wm_eq, fun c q' hq' hc => ?_, fun c c' => x.exitReason_congr q⟩
  have hlow' : p.side = "SHORT" → ∀ b ∈ bars ++ [c], b.low ≠ 0 := by
    intro hside b hb
    rcases List.mem_append.mp hb with hb | hb
    · exact hlow hside b hb
    · rw [List.mem_singleton.mp hb]
      exact hc hside
  have hnext := trails_heldAfter hp hlow' hq'
  rw [extreme_snoc] at hnext
  rw [heldAfter_snoc, hq] at hq'
  exact ⟨notLooser_level a hp htrails hnext, be_managedBar hq'⟩

/-! ## A low of zero -/

/-- The default configuration. -/
def defaultChan : SmoothChan := { alphaId := "smooth", version := "1" }

/-- The constructor admits the defaults. -/
def admitted_defaultChan : defaultChan.Admitted where
  start := 3
  least := 2
  scale := 15 / 100
  chanStart := rfl
  chanMin := rfl
  scalePct := rfl
  least_le_start := by norm_num
  scale_nonneg := by norm_num

/-- A short position at 100, opened with an ATR of 10. -/
def shortAtHundred : SmoothPosition :=
  newPosition "short" "SHORT" (.fin 100) (.fin 1) 0 (.fin 10)

lemma opened_shortAtHundred : Opened shortAtHundred 100 10 where
  side := .inr rfl
  entry_eq := rfl
  entryAtr_eq := rfl
  wm_eq := rfl
  entry_pos := by norm_num
  atr_pos := by norm_num

/-- A candle of which only the high and the low matter. -/
def barOf (high low : ℚ) : ExactCandle := ⟨high, high, low, low, 0⟩

/-- The price falls to 50. -/
theorem short_chandelier_looks_back :
    ∃ q, defaultChan.heldAfter shortAtHundred [barOf 99 60, barOf 60 50] = some q ∧
      LooksBack defaultChan shortAtHundred 100 [barOf 99 60, barOf 60 50] q := by
  have hheld : (defaultChan.heldAfter shortAtHundred [barOf 99 60, barOf 60 50]).isSome = true := by
    decide +kernel
  obtain ⟨q, hq⟩ := Option.isSome_iff_exists.mp hheld
  exact ⟨q, hq, chandelier_looks_back admitted_defaultChan opened_shortAtHundred _
    (fun _ => by decide +kernel) hq⟩

/-- Bars of which the second one touches zero. -/
def touchingZero : List ExactCandle := [barOf 99 50, barOf 60 0, barOf 90 60]

/-- After a low of zero the watermark is forgotten: the level goes from 70 back to 130, and the third bar
makes 60 the watermark, above the extreme of the bars. -/
theorem zero_low_forgets_watermark :
    (defaultChan.heldAfter shortAtHundred (touchingZero.take 1)).map defaultChan.level =
      some (.fin 70) ∧
    (defaultChan.heldAfter shortAtHundred (touchingZero.take 2)).map defaultChan.level =
      some (.fin 130) ∧
    ¬ NotLooser shortAtHundred.side (.fin 70) (.fin 130) ∧
    (defaultChan.heldAfter shortAtHundred touchingZero).map wmOf = some (.fin 60) ∧
    extreme shortAtHundred.side 100 touchingZero = 0 := by decide +kernel

end SmoothChan

end PaperTrade.Runner
