import PaperTrade.Runtime.Float
import PaperTrade.Runtime.Table

/-!
# Specs and selections

`AlphaSpec`, the description of a cross-sectional alpha, and `Selection`, what an alpha picks at one
candle. The parameters of a signal are left out: only the signals read them.
-/

namespace PaperTrade.CrossAlpha

open PaperTrade.Runtime

/-- `construction`. -/
inductive Construction
  | rank
  | winsorCont
deriving DecidableEq

/-- `universe_mode`. -/
inductive UniverseMode
  | fixed
  | currentTopK
deriving DecidableEq

/-- `overlay`: the steps that are configured. -/
structure Overlay where
  /-- `vol_lookback` -/
  riskParity : Option ℕ := none
  /-- `window` -/
  betaNeutralize : Option ℕ := none
  perCoinCap : Option ℚ := none
  /-- `floor` and `factor` -/
  drawdownThrottle : Option (ℚ × ℚ) := none
deriving DecidableEq

/-- `AlphaSpec`. An absent overlay and an empty one are `none`. -/
structure AlphaSpec where
  alphaId : String
  timeframe : String
  signal : String
  universeSize : ℚ := 0
  universeMode : UniverseMode := .fixed
  rebalanceBars : ℤ := 1
  volLookback : ℕ := 30
  ppy : ℚ := 365
  longThreshold : ℚ := 0
  shortThreshold : ℚ := 0
  targetVol : ℚ := 1 / 10
  maxLeverage : ℚ := 3
  feeBps : ℚ := 7
  construction : Construction := .rank
  winsorK : ℚ := 3
  balanced : Bool := true
  reverse : Bool := false
  publishAtMidnightUtc : Bool := false
  rebalanceOnClose : Bool := false
  bookOnly : Bool := false
  overlay : Option Overlay := none
  emaSmooth : Option ℕ := none
  topK : Option ℕ := none
  powerP : ℚ := 1

/-- `Selection`; of the indicators only the `target_weight` of each symbol is kept, in the order of the
symbols, and of the diagnostics the two numbers. -/
structure Selection where
  longs : List String := []
  shorts : List String := []
  scores : Dict String PyFloat := .empty
  ranks : Dict String PyFloat := .empty
  weights : Dict String PyFloat := .empty
  targetWeights : List (String × PyFloat) := []
  gross : PyFloat := 0
  net : PyFloat := 0

end PaperTrade.CrossAlpha
