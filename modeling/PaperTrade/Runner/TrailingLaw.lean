import PaperTrade.Runtime.FloatNeg
import PaperTrade.Runner.ExactCandle
import PaperTrade.Runner.MinuteTrailing

/-!
# The law of the minute functions

`process_long_minute`, `process_long_minute_atr1` and their short versions as folds over the minutes of
a position, in exact arithmetic and with any slippage. The abstract machine is `Ratchet`: the best price
since the entry, and a level that, once it is there, lies strictly between the entry and the best price
and only rises. The long fold is a run of that machine, and the short one its reflection at zero.
-/

namespace PaperTrade.Runner

open PaperTrade.Runtime

/-! ## The four functions with their slippage -/

/-- `process_long_minute` and `process_long_minute_atr1` with their slippage. -/
def longMinuteAt (slippagePct : PyFloat) (inactive : PyFloat → Bool) (c : Candle)
    (entry bestHigh : PyFloat) (active : Option PyFloat) (retracePct : PyFloat) : MinuteStep :=
  if active.any fun active => decide (c.opening ≤ active) then
    .exited (c.opening * (1 - slippagePct))
  else match active.filter fun active => decide (c.low ≤ active) with
    | some active => .exited (active * (1 - slippagePct))
    | none =>
      let best := bestHigh.max c.high
      let peakProfit := best - entry
      if inactive peakProfit || decide (peakProfit ≤ 0) then .holds best active
      else .holds best (some (nextTrailing .max active (entry + peakProfit * (1 - retracePct))))

/-- `process_short_minute` and `process_short_minute_atr1` with their slippage. -/
def shortMinuteAt (slippagePct : PyFloat) (inactive : PyFloat → Bool) (c : Candle)
    (entry bestLow : PyFloat) (active : Option PyFloat) (retracePct : PyFloat) : MinuteStep :=
  if active.any fun active => decide (active ≤ c.opening) then
    .exited (c.opening * (1 + slippagePct))
  else match active.filter fun active => decide (active ≤ c.high) with
    | some active => .exited (active * (1 + slippagePct))
    | none =>
      let best := bestLow.min c.low
      let peakProfit := entry - best
      if inactive peakProfit || decide (peakProfit ≤ 0) then .holds best active
      else .holds best (some (nextTrailing .min active (entry - peakProfit * (1 - retracePct))))

/-- `process_long_minute`. -/
def processLongMinuteAt (slippagePct : PyFloat) := longMinuteAt slippagePct fun _ => false

/-- `process_short_minute`. -/
def processShortMinuteAt (slippagePct : PyFloat) := shortMinuteAt slippagePct fun _ => false

/-- `process_long_minute_atr1`. -/
def processLongMinuteAtr1At (slippagePct minAtrProfit : PyFloat) :=
  longMinuteAt slippagePct fun profit => profit < minAtrProfit

/-- `process_short_minute_atr1`. -/
def processShortMinuteAtr1At (slippagePct minAtrProfit : PyFloat) :=
  shortMinuteAt slippagePct fun profit => profit < minAtrProfit

/-- The strategies call the functions with the default slippage. -/
lemma minute_functions_default :
    processLongMinute = processLongMinuteAt refSlippage ∧
    processShortMinute = processShortMinuteAt refSlippage ∧
    processLongMinuteAtr1 = processLongMinuteAtr1At refSlippage ∧
    processShortMinuteAtr1 = processShortMinuteAtr1At refSlippage := ⟨rfl, rfl, rfl, rfl⟩

/-- A minute function, of the candle, the best price and the level of the minute before. -/
abbrev MinuteFunction := Candle → PyFloat → PyFloat → Option PyFloat → PyFloat → MinuteStep

/-- The fold of a minute function over the minutes of a position; an exit ends it. -/
def foldMinutes (process : MinuteFunction) (entry retracePct : PyFloat) (minutes : List Candle) :
    MinuteStep :=
  minutes.foldl (fun state c => match state with
    | .exited price => .exited price
    | .holds best active => process c entry best active retracePct) (.holds entry none)

lemma foldMinutes_snoc (process : MinuteFunction) (entry retracePct : PyFloat)
    (minutes : List Candle) (c : Candle) :
    foldMinutes process entry retracePct (minutes ++ [c]) =
      match foldMinutes process entry retracePct minutes with
      | .exited price => .exited price
      | .holds best active => process c entry best active retracePct := by
  rw [foldMinutes, List.foldl_append]
  rfl

/-! ## The machine -/

/-- A position that trails: its best price, and its level, if one is set. -/
structure Ratchet (entry : ℚ) where
  best : ℚ
  level : Option ℚ
  between : ∀ l ∈ level, entry < l ∧ l < best

namespace Ratchet

variable {entry : ℚ}

/-- The position as it is opened. -/
def start (entry : ℚ) : Ratchet entry := ⟨entry, none, fun _ h => nomatch h⟩

/-- The minute reaches the level. -/
def Reaches (c : ExactCandle) (level : Option ℚ) : Prop := ∃ l ∈ level, c.opening ≤ l ∨ c.low ≤ l

/-- The level that belongs to a best price. -/
def calculated (entry retrace best : ℚ) : ℚ := entry + (best - entry) * (1 - retrace)

lemma calculated_between {retrace best : ℚ} (h0 : 0 < retrace) (h1 : retrace < 1)
    (hbest : entry < best) :
    entry < calculated entry retrace best ∧ calculated entry retrace best < best := by
  have hprofit : 0 < best - entry := sub_pos.mpr hbest
  have hkept : 0 < (best - entry) * (1 - retrace) := mul_pos hprofit (sub_pos.mpr h1)
  have hgiven : 0 < (best - entry) * retrace := mul_pos hprofit h0
  unfold calculated
  constructor <;> linarith

/-- The level after a minute. -/
def nextLevel (gate retrace : ℚ) (t : Ratchet entry) (best : ℚ) : Option ℚ :=
  if best - entry < gate ∨ best - entry ≤ 0 then t.level
  else some ((t.level.map fun l => max l (calculated entry retrace best)).getD
    (calculated entry retrace best))

variable {gate retrace : ℚ}

lemma nextLevel_between (h0 : 0 < retrace) (h1 : retrace < 1) (t : Ratchet entry) {best : ℚ}
    (hbest : t.best ≤ best) : ∀ l ∈ nextLevel gate retrace t best, entry < l ∧ l < best := by
  intro l hl
  unfold nextLevel at hl
  split at hl
  · obtain ⟨hentry, hlevel⟩ := t.between l hl
    exact ⟨hentry, hlevel.trans_le hbest⟩
  · rename_i hactive
    have hprofit : entry < best := by
      apply lt_of_not_ge
      intro hle
      exact hactive (.inr (by linarith))
    have hcalc := calculated_between h0 h1 hprofit
    cases hlevel : t.level with
    | none =>
      rw [hlevel] at hl
      simp only [Option.map_none, Option.getD_none, Option.mem_def, Option.some.injEq] at hl
      rw [← hl]
      exact hcalc
    | some a =>
      rw [hlevel] at hl
      simp only [Option.map_some, Option.getD_some, Option.mem_def, Option.some.injEq] at hl
      obtain ⟨hentry, hold⟩ := t.between a hlevel
      rw [← hl]
      exact ⟨lt_max_of_lt_left hentry, max_lt (hold.trans_le hbest) hcalc.2⟩

/-- One minute that does not reach the level. -/
def next (h0 : 0 < retrace) (h1 : retrace < 1) (gate : ℚ) (t : Ratchet entry) (c : ExactCandle) :
    Ratchet entry where
  best := max t.best c.high
  level := nextLevel gate retrace t (max t.best c.high)
  between := nextLevel_between h0 h1 t (le_max_left _ _)

/-- A level that is set stays and does not fall. -/
lemma le_nextLevel (t : Ratchet entry) (best : ℚ) {l : ℚ} (hl : l ∈ t.level) :
    ∃ m ∈ nextLevel gate retrace t best, l ≤ m := by
  have hlevel : t.level = some l := hl
  unfold nextLevel
  split
  · exact ⟨l, hl, le_refl l⟩
  · refine ⟨_, rfl, ?_⟩
    rw [hlevel]
    exact le_max_left _ _

/-- The state of the code for a position that trails. -/
def held (t : Ratchet entry) : MinuteStep := .holds t.best (t.level.map .fin)

end Ratchet

/-! ## One minute -/

section Step

variable {entry retrace gate slippage : ℚ}

lemma longMinuteAt_none (inactive : PyFloat → Bool) (c : ExactCandle) (best : ℚ) :
    longMinuteAt slippage inactive c.floats entry best none retrace =
      if inactive (.fin (max best c.high - entry)) = true ∨ max best c.high - entry ≤ 0 then
        .holds (.fin (max best c.high)) none
      else .holds (.fin (max best c.high)) (some (.fin (Ratchet.calculated entry retrace (max best c.high)))) := by
  simp [longMinuteAt, ExactCandle.floats, nextTrailing, Ratchet.calculated]

lemma longMinuteAt_open (inactive : PyFloat → Bool) (c : ExactCandle) (best : ℚ) {l : ℚ}
    (h : c.opening ≤ l) :
    longMinuteAt slippage inactive c.floats entry best (some (.fin l)) retrace =
      .exited (.fin (c.opening * (1 - slippage))) := by
  simp [longMinuteAt, ExactCandle.floats, h]

lemma longMinuteAt_low (inactive : PyFloat → Bool) (c : ExactCandle) (best : ℚ) {l : ℚ}
    (hopen : ¬ c.opening ≤ l) (h : c.low ≤ l) :
    longMinuteAt slippage inactive c.floats entry best (some (.fin l)) retrace =
      .exited (.fin (l * (1 - slippage))) := by
  simp [longMinuteAt, ExactCandle.floats, Option.filter, hopen, h]

lemma longMinuteAt_hold (inactive : PyFloat → Bool) (c : ExactCandle) (best : ℚ) {l : ℚ}
    (hopen : ¬ c.opening ≤ l) (h : ¬ c.low ≤ l) :
    longMinuteAt slippage inactive c.floats entry best (some (.fin l)) retrace =
      if inactive (.fin (max best c.high - entry)) = true ∨ max best c.high - entry ≤ 0 then
        .holds (.fin (max best c.high)) (some (.fin l))
      else .holds (.fin (max best c.high))
        (some (.fin (max l (Ratchet.calculated entry retrace (max best c.high))))) := by
  simp [longMinuteAt, ExactCandle.floats, Option.filter, nextTrailing, Ratchet.calculated, hopen, h]

/-- A minute that reaches the level is an exit at the smaller of the open and the level. -/
lemma processLongMinuteAtr1At_reached (c : ExactCandle) (best : ℚ) {l : ℚ}
    (h : c.opening ≤ l ∨ c.low ≤ l) :
    processLongMinuteAtr1At slippage gate c.floats entry best (some (.fin l)) retrace =
      .exited (.fin (min c.opening l * (1 - slippage))) := by
  by_cases hopen : c.opening ≤ l
  · rw [min_eq_left hopen]
    exact longMinuteAt_open _ c best hopen
  · rw [min_eq_right (not_le.mp hopen).le]
    exact longMinuteAt_low _ c best hopen (h.resolve_left hopen)

/-- Every other minute is a step of the machine. -/
lemma processLongMinuteAtr1At_held (h0 : 0 < retrace) (h1 : retrace < 1) (t : Ratchet entry)
    {c : ExactCandle} (h : ¬ Ratchet.Reaches c t.level) :
    processLongMinuteAtr1At slippage gate c.floats entry t.best (t.level.map .fin) retrace =
      (t.next h0 h1 gate c).held := by
  have hinactive : ∀ best : ℚ, (decide ((.fin (best - entry) : PyFloat) < .fin gate) = true ∨
      best - entry ≤ 0) ↔ best - entry < gate ∨ best - entry ≤ 0 := by
    intro best
    rw [decide_eq_true_iff, PyFloat.fin_lt_fin]
  show longMinuteAt _ _ _ _ _ _ _ =
    .holds (.fin (max t.best c.high)) ((Ratchet.nextLevel gate retrace t (max t.best c.high)).map .fin)
  unfold Ratchet.nextLevel
  cases hlevel : t.level with
  | none =>
    rw [Option.map_none, longMinuteAt_none]
    simp only [hinactive]
    split <;> rfl
  | some l =>
    have hopen : ¬ c.opening ≤ l := fun hle => h ⟨l, hlevel, .inl hle⟩
    have hlow : ¬ c.low ≤ l := fun hle => h ⟨l, hlevel, .inr hle⟩
    rw [Option.map_some, longMinuteAt_hold _ c t.best hopen hlow]
    simp only [hinactive]
    split <;> rfl

/-- A gate that is not positive closes nothing that an absent profit does not close. -/
lemma longMinuteAt_gate {gate : PyFloat} (hgate : gate ≤ 0) :
    longMinuteAt slippage (fun profit => profit < gate) = longMinuteAt slippage fun _ => false := by
  funext c entry best active retrace
  have hgated : ∀ x : PyFloat, (decide (x < gate) || decide (x ≤ 0)) = (false || decide (x ≤ 0)) := by
    intro x
    by_cases hx : x < gate
    · have hle : x ≤ 0 := PyFloat.le_trans (PyFloat.le_of_lt hx) hgate
      rw [decide_eq_true hx, decide_eq_true hle]
      rfl
    · rw [decide_eq_false hx]
  simp only [longMinuteAt, hgated]

end Step

/-! ## Negated prices -/

/-- The candle with its prices negated. -/
def Candle.neg (c : Candle) : Candle := ⟨-c.opening, -c.low, -c.high, -c.close, c.time⟩

/-- The outcome of a minute with its prices negated. -/
def MinuteStep.neg : MinuteStep → MinuteStep
  | .exited price => .exited (-price)
  | .holds best trailing => .holds (-best) (trailing.map (-·))

/-- Without slippage the short functions are the long ones on negated prices. -/
lemma shortMinuteAt_eq_neg (inactive : PyFloat → Bool) (c : Candle) (entry best : PyFloat)
    (active : Option PyFloat) (retracePct : PyFloat) :
    shortMinuteAt 0 inactive c entry best active retracePct =
      (longMinuteAt 0 inactive c.neg (-entry) (-best) (active.map (-·)) retracePct).neg := by
  have hless : (1 : PyFloat) - 0 = 1 := by simp
  have hmore : (1 : PyFloat) + 0 = 1 := by simp
  unfold shortMinuteAt longMinuteAt
  simp only [Candle.neg, PyFloat.max_neg, PyFloat.neg_sub_neg, hless, hmore, PyFloat.mul_one]
  generalize entry - best.min c.low = peakProfit
  have hgated : ∀ l l' : Option PyFloat, l = l'.map (-·) →
      (if (inactive peakProfit || decide (peakProfit ≤ 0)) = true then
        MinuteStep.holds (best.min c.low) active
      else .holds (best.min c.low) l) =
      MinuteStep.neg (if (inactive peakProfit || decide (peakProfit ≤ 0)) = true then
        .holds (-best.min c.low) (active.map (-·))
      else .holds (-best.min c.low) l') := by
    intro l l' hl
    split
    · simp [MinuteStep.neg, Function.comp_def]
    · rw [hl]
      simp [MinuteStep.neg]
  cases active with
  | none =>
    apply hgated
    simp [nextTrailing, PyFloat.neg_sub, ← PyFloat.neg_sub]
  | some l =>
    by_cases hopen : l ≤ c.opening
    · simp [hopen, PyFloat.neg_le_neg, MinuteStep.neg]
    · by_cases hhigh : l ≤ c.high
      · simp [hopen, hhigh, Option.filter, PyFloat.neg_le_neg, MinuteStep.neg]
      · simp only [hopen, hhigh, Option.filter, PyFloat.neg_le_neg, Option.any_some, Option.map_some,
          decide_false, Bool.false_eq_true, if_false]
        apply hgated
        simp [nextTrailing, ← PyFloat.neg_sub, PyFloat.max_neg]

/-! ## The fold -/

/-- The fold of a long position over minutes in exact arithmetic. -/
def foldLong (process : MinuteFunction) (entry retracePct : ℚ) (minutes : List ExactCandle) :
    MinuteStep :=
  foldMinutes process entry retracePct (minutes.map ExactCandle.floats)

lemma foldLong_snoc (process : MinuteFunction) (entry retracePct : ℚ) (minutes : List ExactCandle)
    (c : ExactCandle) :
    foldLong process entry retracePct (minutes ++ [c]) =
      match foldLong process entry retracePct minutes with
      | .exited price => .exited price
      | .holds best active => process c.floats entry best active retracePct := by
  rw [foldLong, List.map_append]
  exact foldMinutes_snoc process entry retracePct _ c.floats

/-- The law of a fold that trails a long position: what the minutes so far have left, and what one more
minute does. A position that is held is a `Ratchet`, so its level lies strictly between the entry and the
best price. -/
structure LongLaw (entry slippage : ℚ) (fold : List ExactCandle → MinuteStep) : Prop where
  start : fold [] = (Ratchet.start entry).held
  outcome : ∀ minutes, (∃ price, fold minutes = .exited price) ∨
    ∃ t : Ratchet entry, fold minutes = t.held
  rises : ∀ minutes c, ∀ t t' : Ratchet entry, fold minutes = t.held →
    fold (minutes ++ [c]) = t'.held → t.best ≤ t'.best ∧ ∀ l ∈ t.level, ∃ l' ∈ t'.level, l ≤ l'
  exits : ∀ minutes c, ∀ t : Ratchet entry, fold minutes = t.held →
    ((∃ price, fold (minutes ++ [c]) = .exited price) ↔ Ratchet.Reaches c t.level)
  price : ∀ minutes c, ∀ t : Ratchet entry, fold minutes = t.held → ∀ l ∈ t.level,
    (c.opening ≤ l ∨ c.low ≤ l) →
    fold (minutes ++ [c]) = .exited (.fin (min c.opening l * (1 - slippage)))
  final : ∀ minutes c price, fold minutes = .exited price →
    fold (minutes ++ [c]) = .exited price

lemma Ratchet.held_inj {entry : ℚ} {t t' : Ratchet entry} (h : t.held = t'.held) : t = t' := by
  obtain ⟨best, level, hbetween⟩ := t
  obtain ⟨best', level', hbetween'⟩ := t'
  simp only [held, MinuteStep.holds.injEq, PyFloat.fin.injEq] at h
  obtain ⟨rfl, hlevel⟩ := h
  have hinj : Function.Injective PyFloat.fin := fun p q hpq => PyFloat.fin.inj hpq
  obtain rfl := Option.map_injective hinj hlevel
  rfl

/-- A fold that exits where the level is reached, and otherwise follows the machine, obeys the law. -/
lemma longLaw_of_step {entry retrace gate slippage : ℚ} (h0 : 0 < retrace) (h1 : retrace < 1)
    {process : MinuteFunction}
    (hreached : ∀ (c : ExactCandle) (best l : ℚ), (c.opening ≤ l ∨ c.low ≤ l) →
      process c.floats entry best (some (.fin l)) retrace =
        .exited (.fin (min c.opening l * (1 - slippage))))
    (hheld : ∀ (t : Ratchet entry) (c : ExactCandle), ¬ Ratchet.Reaches c t.level →
      process c.floats entry t.best (t.level.map .fin) retrace = (t.next h0 h1 gate c).held) :
    LongLaw entry slippage (foldLong process entry retrace) := by
  -- one more minute of a position that is held
  have hprice : ∀ minutes c, ∀ t : Ratchet entry, foldLong process entry retrace minutes = t.held →
      ∀ l ∈ t.level, (c.opening ≤ l ∨ c.low ≤ l) →
      foldLong process entry retrace (minutes ++ [c]) =
        .exited (.fin (min c.opening l * (1 - slippage))) := by
    intro minutes c t ht l hl hreach
    have hlevel : t.level = some l := hl
    rw [foldLong_snoc, ht]
    show process c.floats entry t.best (t.level.map .fin) retrace = _
    rw [hlevel]
    exact hreached c t.best l hreach
  have hnext : ∀ minutes c, ∀ t : Ratchet entry, foldLong process entry retrace minutes = t.held →
      ¬ Ratchet.Reaches c t.level →
      foldLong process entry retrace (minutes ++ [c]) = (t.next h0 h1 gate c).held := by
    intro minutes c t ht hreach
    rw [foldLong_snoc, ht]
    exact hheld t c hreach
  have hfinal : ∀ minutes c price, foldLong process entry retrace minutes = .exited price →
      foldLong process entry retrace (minutes ++ [c]) = .exited price := by
    intro minutes c price hprice
    rw [foldLong_snoc, hprice]
  refine ⟨rfl, fun minutes => ?_, fun minutes c t t' ht ht' => ?_, fun minutes c t ht => ?_, hprice,
    hfinal⟩
  · induction minutes using List.reverseRecOn with
    | nil => exact .inr ⟨Ratchet.start entry, rfl⟩
    | append_singleton minutes c ih =>
      rcases ih with ⟨price, hexit⟩ | ⟨t, ht⟩
      · exact .inl ⟨price, hfinal minutes c price hexit⟩
      · by_cases hreach : Ratchet.Reaches c t.level
        · obtain ⟨l, hl, hle⟩ := hreach
          exact .inl ⟨_, hprice minutes c t ht l hl hle⟩
        · exact .inr ⟨_, hnext minutes c t ht hreach⟩
  · have hreach : ¬ Ratchet.Reaches c t.level := by
      rintro ⟨l, hl, hle⟩
      rw [hprice minutes c t ht l hl hle] at ht'
      exact nomatch ht'
    rw [hnext minutes c t ht hreach] at ht'
    rw [← Ratchet.held_inj ht']
    exact ⟨le_max_left _ _, fun l hl => t.le_nextLevel _ hl⟩
  · constructor
    · rintro ⟨price, hexit⟩
      by_contra hreach
      rw [hnext minutes c t ht hreach] at hexit
      exact nomatch hexit
    · rintro ⟨l, hl, hle⟩
      exact ⟨_, hprice minutes c t ht l hl hle⟩

/-- A fold of a short position is the fold of the long one over the negated minutes. -/
lemma foldMinutes_neg {short long : MinuteFunction}
    (h : ∀ c entry best active retracePct, short c entry best active retracePct =
      (long c.neg (-entry) (-best) (active.map (-·)) retracePct).neg)
    (entry retracePct : PyFloat) (minutes : List Candle) :
    foldMinutes short entry retracePct minutes =
      (foldMinutes long (-entry) retracePct (minutes.map Candle.neg)).neg := by
  induction minutes using List.reverseRecOn with
  | nil => simp [foldMinutes, MinuteStep.neg]
  | append_singleton minutes c ih =>
    rw [List.map_append, List.map_singleton, foldMinutes_snoc, foldMinutes_snoc, ih]
    cases foldMinutes long (-entry) retracePct (minutes.map Candle.neg) with
    | exited price => rfl
    | holds best active =>
      show short c entry (-best) (active.map (-·)) retracePct = _
      rw [h]
      simp [Function.comp_def]

/-- The minute functions obey one law: the long ones trail a ratchet, the ungated one is the gated one
with a gate that is not positive, and without slippage the short ones are the long ones on negated
prices. -/
theorem minute_functions_law {entry retrace : ℚ} (gate slippage : ℚ) (h0 : 0 < retrace)
    (h1 : retrace < 1) :
    LongLaw entry slippage (foldLong (processLongMinuteAtr1At slippage gate) entry retrace) ∧
    (gate ≤ 0 → processLongMinuteAtr1At slippage gate = processLongMinuteAt slippage) ∧
    ∀ minutes : List Candle,
      foldMinutes (processShortMinuteAtr1At 0 gate) entry retrace minutes =
        (foldMinutes (processLongMinuteAtr1At 0 gate) (-(entry : PyFloat)) retrace
          (minutes.map Candle.neg)).neg ∧
      foldMinutes (processShortMinuteAt 0) entry retrace minutes =
        (foldMinutes (processLongMinuteAt 0) (-(entry : PyFloat)) retrace
          (minutes.map Candle.neg)).neg := by
  refine ⟨?_, fun hgate => ?_, fun minutes => ⟨?_, ?_⟩⟩
  · exact longLaw_of_step h0 h1 (fun c best l h => processLongMinuteAtr1At_reached c best h)
      fun t c h => processLongMinuteAtr1At_held h0 h1 t h
  · exact longMinuteAt_gate ((PyFloat.fin_le_fin gate 0).mpr hgate)
  · exact foldMinutes_neg (shortMinuteAt_eq_neg _) _ _ _
  · exact foldMinutes_neg (shortMinuteAt_eq_neg _) _ _ _

/-- A twentieth to give back, and no gate. -/
theorem minute_functions_law_five_percent :
    LongLaw 100 (1 / 10000)
      (foldLong (processLongMinuteAtr1At (.fin (1 / 10000)) (.fin 0)) (100 : ℚ) (1 / 20 : ℚ)) ∧
    processLongMinuteAtr1At (.fin (1 / 10000)) (.fin 0) = processLongMinuteAt (.fin (1 / 10000)) :=
  have h := @minute_functions_law 100 (1 / 20) 0 (1 / 10000) (by norm_num) (by norm_num)
  ⟨h.1, h.2.1 le_rfl⟩

end PaperTrade.Runner
