import Mathlib.Order.Bounds.Basic
import PaperTrade.CrossAlpha.Schedule

/-!
# The cadence of the schedule

For candles that open at multiples of the timeframe, the conditions of `is_rebalance_due` are
divisibilities: a close is on the cadence when `rebalance_bars` timeframes divide it, and behind the
midnight gate when a day divides it too. The due times are therefore the multiples of one period.
-/

namespace PaperTrade.CrossAlpha

/-! ## Periodic times -/

/-- There are such times, and each is followed by the next one after exactly the period. -/
def EveryPeriod (times : Set ℤ) (period : ℤ) : Prop :=
  times.Nonempty ∧ ∀ t ∈ times, IsLeast {u | u ∈ times ∧ t < u} (t + period)

/-- Consecutive multiples of a number are that number apart. -/
lemma everyPeriod_multiples {times : Set ℤ} {period : ℤ} (hperiod : 0 < period)
    (htimes : ∀ t, t ∈ times ↔ period ∣ t) : EveryPeriod times period := by
  refine ⟨⟨0, (htimes 0).mpr (dvd_zero period)⟩, fun t ht => ⟨⟨?_, by omega⟩, ?_⟩⟩
  · exact (htimes _).mpr (dvd_add_self_right.mpr ((htimes t).mp ht))
  · intro u ⟨hu, hlt⟩
    have hdvd : period ∣ u - t := dvd_sub ((htimes u).mp hu) ((htimes t).mp ht)
    have hle : period ≤ u - t := Int.le_of_dvd (by omega) hdvd
    omega

/-! ## The conditions as divisibilities -/

/-- `x % y == 0` is divisibility. -/
lemma decide_fmod_eq_zero (x y : ℤ) : decide (x.fmod y = 0) = decide (y ∣ x) := by
  rw [decide_eq_decide, Int.dvd_iff_fmod_eq_zero]

section

variable {tfMs rebalanceBars : ℤ}

/-- A multiple of the timeframe is on the cadence when the period divides it. -/
lemma onCadence_eq {a : ℤ} (htf : 0 < tfMs) (hbars : 1 ≤ rebalanceBars) (ha : tfMs ∣ a) :
    onCadence a tfMs rebalanceBars = some (decide (rebalanceBars * tfMs ∣ a)) := by
  obtain ⟨k, rfl⟩ := ha
  have hdiv : (tfMs * k).fdiv tfMs = k := by
    rw [Int.fdiv_eq_ediv_of_nonneg _ htf.le, Int.mul_ediv_cancel_left k htf.ne']
  have hdvd : rebalanceBars ∣ k ↔ rebalanceBars * tfMs ∣ tfMs * k := by
    rw [mul_comm rebalanceBars, mul_dvd_mul_iff_left htf.ne']
  unfold onCadence
  rw [if_neg (by omega), hdiv, decide_fmod_eq_zero, decide_eq_decide.mpr hdvd]

variable {candleOpenMs : ℤ}

/-- Behind the midnight gate a candle is due when both the day and the period divide its close. -/
lemma isRebalanceDue_midnight (htf : 0 < tfMs) (hbars : 1 ≤ rebalanceBars)
    (hopen : tfMs ∣ candleOpenMs) (rebalanceOnClose : Bool) :
    isRebalanceDue candleOpenMs tfMs rebalanceBars true rebalanceOnClose = some true ↔
      dayMs ∣ candleOpenMs + tfMs ∧ rebalanceBars * tfMs ∣ candleOpenMs + tfMs := by
  have hclose : tfMs ∣ candleOpenMs + tfMs := dvd_add_self_right.mpr hopen
  by_cases hday : dayMs ∣ candleOpenMs + tfMs <;>
    simp [isRebalanceDue, isMidnightCloseUtc, isCloseAlignedRebalance, decide_fmod_eq_zero, hday,
      onCadence_eq htf hbars hclose]

/-- Without the gate, on closes, a candle is due when the period divides its close. -/
lemma isRebalanceDue_close (htf : 0 < tfMs) (hbars : 1 ≤ rebalanceBars)
    (hopen : tfMs ∣ candleOpenMs) :
    isRebalanceDue candleOpenMs tfMs rebalanceBars false true = some true ↔
      rebalanceBars * tfMs ∣ candleOpenMs + tfMs := by
  have hclose : tfMs ∣ candleOpenMs + tfMs := dvd_add_self_right.mpr hopen
  simp [isRebalanceDue, isCloseAlignedRebalance, onCadence_eq htf hbars hclose]

/-- Without both, a candle is due when the period divides its open. -/
lemma isRebalanceDue_open (htf : 0 < tfMs) (hbars : 1 ≤ rebalanceBars)
    (hopen : tfMs ∣ candleOpenMs) :
    isRebalanceDue candleOpenMs tfMs rebalanceBars false false = some true ↔
      rebalanceBars * tfMs ∣ candleOpenMs := by
  simp [isRebalanceDue, onCadence_eq htf hbars hopen]

end

/-! ## The due times -/

/-- The opens of the due candles among those that open at multiples of the timeframe. -/
def dueOpens (tfMs rebalanceBars : ℤ) (publishAtMidnightUtc rebalanceOnClose : Bool) : Set ℤ :=
  {t | tfMs ∣ t ∧
    isRebalanceDue t tfMs rebalanceBars publishAtMidnightUtc rebalanceOnClose = some true}

/-- The closes of these candles. -/
def dueCloses (tfMs rebalanceBars : ℤ) (publishAtMidnightUtc rebalanceOnClose : Bool) : Set ℤ :=
  {t | t - tfMs ∈ dueOpens tfMs rebalanceBars publishAtMidnightUtc rebalanceOnClose}

/-- A close is due when its candle opens at a multiple of the timeframe and satisfies a condition. -/
lemma mem_dueCloses {tfMs rebalanceBars : ℤ} {midnight onClose : Bool} {P : ℤ → Prop}
    (hdue : ∀ o, tfMs ∣ o →
      (isRebalanceDue o tfMs rebalanceBars midnight onClose = some true ↔ P (o + tfMs)))
    (hdvd : ∀ t, P t → tfMs ∣ t) (t : ℤ) :
    t ∈ dueCloses tfMs rebalanceBars midnight onClose ↔ P t := by
  constructor
  · intro ⟨hopen, h⟩
    have hP := (hdue _ hopen).mp h
    rwa [sub_add_cancel] at hP
  · intro hP
    have hopen : tfMs ∣ t - tfMs := dvd_sub_self_right.mpr (hdvd t hP)
    refine ⟨hopen, (hdue _ hopen).mpr ?_⟩
    rwa [sub_add_cancel]

/-- The cadence of every timeframe and every number of bars. On closes the due closes are
`rebalance_bars` timeframes apart; behind the midnight gate a candle is due exactly when its close is
a common multiple of the day and that period, and the due closes are their least common multiple
apart; with neither, the due opens are that period apart. -/
theorem rebalance_cadence (tfMs rebalanceBars : ℤ) (htf : 0 < tfMs) (hbars : 1 ≤ rebalanceBars) :
    EveryPeriod (dueCloses tfMs rebalanceBars false true) (rebalanceBars * tfMs) ∧
    (∀ rebalanceOnClose,
      (∀ candleOpenMs, tfMs ∣ candleOpenMs →
        (isRebalanceDue candleOpenMs tfMs rebalanceBars true rebalanceOnClose = some true ↔
          dayMs ∣ candleOpenMs + tfMs ∧ rebalanceBars * tfMs ∣ candleOpenMs + tfMs)) ∧
      EveryPeriod (dueCloses tfMs rebalanceBars true rebalanceOnClose)
        (Int.lcm dayMs (rebalanceBars * tfMs))) ∧
    EveryPeriod (dueOpens tfMs rebalanceBars false false) (rebalanceBars * tfMs) := by
  have hperiod : 0 < rebalanceBars * tfMs := by positivity
  have htfdvd : ∀ t, rebalanceBars * tfMs ∣ t → tfMs ∣ t := fun t => dvd_of_mul_left_dvd
  refine ⟨?_, fun rebalanceOnClose => ⟨?_, ?_⟩, ?_⟩
  · apply everyPeriod_multiples hperiod
    exact mem_dueCloses (fun o ho => isRebalanceDue_close htf hbars ho) htfdvd
  · exact fun o ho => isRebalanceDue_midnight htf hbars ho rebalanceOnClose
  · have hlcm : 0 < (Int.lcm dayMs (rebalanceBars * tfMs) : ℤ) := by
      exact_mod_cast Int.lcm_pos (by decide) hperiod.ne'
    apply everyPeriod_multiples hlcm
    intro t
    rw [mem_dueCloses (P := fun t => dayMs ∣ t ∧ rebalanceBars * tfMs ∣ t)
      (fun o ho => isRebalanceDue_midnight htf hbars ho rebalanceOnClose)
      (fun t ht => htfdvd t ht.2), Int.coe_lcm_dvd_iff]
  · apply everyPeriod_multiples hperiod
    intro t
    constructor
    · exact fun ⟨hopen, h⟩ => (isRebalanceDue_open htf hbars hopen).mp h
    · exact fun h => ⟨htfdvd t h, (isRebalanceDue_open htf hbars (htfdvd t h)).mpr h⟩

/-- A cadence of 36 hours in candles of one hour: behind the midnight gate, every 72 hours. -/
theorem rebalance_cadence_36h :
    EveryPeriod (dueCloses 3600000 36 false true) 129600000 ∧
      EveryPeriod (dueCloses 3600000 36 true true) 259200000 :=
  ⟨(rebalance_cadence 3600000 36 (by decide) (by decide)).1,
    ((rebalance_cadence 3600000 36 (by decide) (by decide)).2.1 true).2⟩

end PaperTrade.CrossAlpha
