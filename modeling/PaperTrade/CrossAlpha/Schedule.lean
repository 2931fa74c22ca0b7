import Mathlib.Tactic

/-!
# The rebalance schedule

`is_rebalance_due` says at which candles an alpha rebalances: its cadence counts the opens of the
candles or their closes, and may be gated to the closes at 00:00 UTC. A candle is given by the time it
opens, in milliseconds.
-/

namespace PaperTrade.CrossAlpha

/-- `DAY_MS`. -/
def dayMs : ℤ := 86400000

/-- `is_midnight_close_utc`. -/
def isMidnightCloseUtc (candleOpenMs tfMs : ℤ) : Bool :=
  decide ((candleOpenMs + tfMs).fmod dayMs = 0)

/-- `(a // b) % c == 0`; `none` is a `ZeroDivisionError`. -/
def onCadence (a b c : ℤ) : Option Bool :=
  if b = 0 ∨ c = 0 then none else some (decide ((a.fdiv b).fmod c = 0))

/-- `is_close_aligned_rebalance`. -/
def isCloseAlignedRebalance (candleOpenMs tfMs rebalanceBars : ℤ) : Option Bool :=
  onCadence (candleOpenMs + tfMs) tfMs rebalanceBars

/-- `is_rebalance_due`. -/
def isRebalanceDue (candleOpenMs tfMs rebalanceBars : ℤ)
    (publishAtMidnightUtc rebalanceOnClose : Bool) : Option Bool :=
  if publishAtMidnightUtc && !isMidnightCloseUtc candleOpenMs tfMs then some false
  else if publishAtMidnightUtc || rebalanceOnClose then
    isCloseAlignedRebalance candleOpenMs tfMs rebalanceBars
  else onCadence candleOpenMs tfMs rebalanceBars

/-- Behind the midnight gate nothing is due at another hour. -/
lemma not_due_of_gated {candleOpenMs tfMs rebalanceBars : ℤ} {rebalanceOnClose : Bool}
    (h : isMidnightCloseUtc candleOpenMs tfMs = false) :
    isRebalanceDue candleOpenMs tfMs rebalanceBars true rebalanceOnClose = some false := by
  simp [isRebalanceDue, h]

end PaperTrade.CrossAlpha
