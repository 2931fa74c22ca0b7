import PaperTrade.Runner.SuploXau

/-!
# Candles in exact arithmetic

A candle with rational prices. `WellFormed` is what every market-data source keeps: the low is below the
open and the close, and the high above them. `mirror p` reflects all prices at `p`; the high and the low
change places.
-/

namespace PaperTrade.Runner

open PaperTrade.Runtime

/-- A candle whose prices are numbers. -/
structure ExactCandle where
  opening : ℚ
  high : ℚ
  low : ℚ
  close : ℚ
  time : ℤ
deriving DecidableEq

namespace ExactCandle

/-- The candle as the floats of the code. -/
def floats (c : ExactCandle) : Candle := ⟨c.opening, c.high, c.low, c.close, c.time⟩

/-- The low is the least price of the candle, and the high the greatest one. -/
structure WellFormed (c : ExactCandle) : Prop where
  low_le_opening : c.low ≤ c.opening
  opening_le_high : c.opening ≤ c.high
  low_le_close : c.low ≤ c.close
  close_le_high : c.close ≤ c.high

instance (c : ExactCandle) : Decidable c.WellFormed :=
  decidable_of_iff
    (c.low ≤ c.opening ∧ c.opening ≤ c.high ∧ c.low ≤ c.close ∧ c.close ≤ c.high)
    ⟨fun ⟨a, b, c, d⟩ => ⟨a, b, c, d⟩, fun ⟨a, b, c, d⟩ => ⟨a, b, c, d⟩⟩

lemma WellFormed.low_le_high {c : ExactCandle} (h : c.WellFormed) : c.low ≤ c.high :=
  h.low_le_opening.trans h.opening_le_high

/-- Every price `q` becomes `2 * p - q`. -/
def mirror (p : ℚ) (c : ExactCandle) : ExactCandle where
  opening := 2 * p - c.opening
  high := 2 * p - c.low
  low := 2 * p - c.high
  close := 2 * p - c.close
  time := c.time

lemma WellFormed.mirror {c : ExactCandle} (h : c.WellFormed) (p : ℚ) : (c.mirror p).WellFormed where
  low_le_opening := sub_le_sub_left h.opening_le_high _
  opening_le_high := sub_le_sub_left h.low_le_opening _
  low_le_close := sub_le_sub_left h.close_le_high _
  close_le_high := sub_le_sub_left h.low_le_close _

@[simp] lemma mirror_mirror (p : ℚ) (c : ExactCandle) : (c.mirror p).mirror p = c := by
  cases c
  simp [mirror]

end ExactCandle

end PaperTrade.Runner
