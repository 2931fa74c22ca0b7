import PaperTrade.Base.Reconcile
import PaperTrade.PortfolioManager.Engine
import PaperTrade.Worker.Acceptance

/-!
# `PortfolioService`

`_reconcile_and_publish` compares a target with the published positions of the portfolio and publishes
a CLOSE for every position that is not on the side of its target and an OPEN for every target that is
not held.

A same-side position whose weight differs is meant to be closed and opened again. The weight is read
off `str` of the decoded metadata, which is no JSON, so no published position has a weight
(`positionWeight_published`) and none is ever resized.
-/

namespace PaperTrade.PortfolioManager

open PaperTrade.Runtime PaperTrade.Worker PaperTrade.Base

/-! ## Reading the snapshot -/

/-- The items of a loop over a decoded value; `none` is a `TypeError`. The items of a `dict` or a string
are strings, and no position. -/
def loopItems : Json → Option (List Json)
  | .arr items => some items
  | .obj _ | .str _ => some []
  | _ => none

/-- `_read_snapshot`; `none` is an exception. -/
def readSnapshot (raw : Option Text) : Option (List Entries) :=
  match raw with
  | none => some []
  | some raw => do
    let items ← match ← raw.loads with
      | .obj payload => loopItems ((Entries.get? payload "positions").getD (.arr []))
      | parsed => loopItems parsed
    pure (items.filterMap Json.entries?)

/-- `_position_weight`. -/
def positionWeight (position : Entries) : Option PyFloat :=
  match (position.get? "weight").bind fun raw => (jsonFloat raw).toOption with
  | some weight => some weight
  | none =>
    match (pyStr ((position.get? "metadata").getD (.str "{}"))).loads with
    | some (.obj metadata) =>
      (Entries.get? metadata "weight").bind fun w => if w = .null then none else w.floatOfStr
    | _ => none

/-- `_WEIGHT_TOLERANCE`. -/
def weightTolerance : PyFloat := .fin (1 / 1000000000)

/-! ## The signals -/

/-- What `PortfolioService` reads of its configuration. -/
structure PortfolioService where
  alphaId : String
  capital : ℚ
  exchange : String := "binance"
  feeBps : PyFloat := 7

/-- The clock and the fresh ids of a signal. -/
structure Stamp where
  timestamp : String
  signalId : String
  positionId : String

/-- The side of a target weight. -/
def targetSide (weight : ℚ) : String := if 0 < weight then "LONG" else if weight < 0 then "SHORT" else "FLAT"

/-- `target.get(symbol, 0.0)`. -/
def targetWeight (target : Dict String ℚ) (symbol : String) : ℚ := (target.get? symbol).getD 0

/-- `current_by_symbol`. -/
def currentBySymbol (current : List Entries) : Dict String Entries :=
  .collect (fun pos => ((pos.get? "symbol").filter Json.truthy).map fun symbol => (strOf symbol, pos))
    current

/-- `target_side != current_side or resized`. -/
def closesPosition (target : Dict String ℚ) (e : String × Entries) : Bool :=
  let weight := targetWeight target e.1
  let currentSide := strItemOr e.2 "side" ""
  let resized := targetSide weight = currentSide ∧
    (positionWeight e.2).any fun current => weightTolerance < (current - .fin weight).abs
  targetSide weight ≠ currentSide ∨ resized

/-- The symbols that are held on the side of their target. -/
def heldOnSide (target : Dict String ℚ) (current : Dict String Entries) (e : String × ℚ) : Bool :=
  match current.get? e.1 with
  | none => false
  | some position => !closesPosition target (e.1, position) &&
      strOf (getOrNone position "side") = (if 0 < e.2 then "LONG" else "SHORT")

/-- `position.get("position_id")`, unless it is `None`: such a field is not sent. -/
def sentPositionId (position : Entries) : Option String :=
  match position.get? "position_id" with
  | none | some .null => none
  | some id => some (strOf id)

namespace PortfolioService

variable (self : PortfolioService)

/-- The CLOSE of a published position. -/
def closeSignal (stamp : Stamp) (e : String × Entries) : RawSignal where
  type := "CLOSE"
  alphaId := self.alphaId
  signalId := stamp.signalId
  timestamp := stamp.timestamp
  symbol := e.1
  positionId := sentPositionId e.2
  reason := "PM_RECONCILE"

/-- The OPEN of a target. -/
def openSignal (stamp : Stamp) (symbol : String) (weight : ℚ) (price : PyFloat) : RawSignal where
  type := "OPEN"
  alphaId := self.alphaId
  signalId := stamp.signalId
  timestamp := stamp.timestamp
  symbol := symbol
  side := some (if 0 < weight then "LONG" else "SHORT")
  entry := some (.num price)
  qty := some (.num (.fin (self.capital * |weight|) / price))
  leverage := some (.chars "1")
  positionId := stamp.positionId
  exchange := self.exchange
  feePct := some (.num (self.feeBps / 10000))
  metadata := some (.json (.obj [("weight", .float (.fin weight)), ("pm_alpha_id", .str self.alphaId)]))

/-- One pass of the loop over the target. -/
def openTarget (target : Dict String ℚ) (prices : Dict String PyFloat) (current : Dict String Entries)
    (opening : String → Stamp) (e : String × ℚ) : Option RawSignal :=
  if e.2 = 0 then none
  else if heldOnSide target current e then none
  else
    let price := (prices.get? e.1).getD 0
    if price ≤ 0 then none else some (self.openSignal (opening e.1) e.1 e.2 price)

/-- `_reconcile_and_publish`: what is published; `none` is an exception. -/
def reconcileAndPublish (raw : Option Text) (target : Dict String ℚ) (prices : Dict String PyFloat)
    (closing opening : String → Stamp) : Option (List RawSignal) := do
  let current := currentBySymbol (← readSnapshot raw)
  let closes := (current.rows.filter (closesPosition target)).map fun e =>
    self.closeSignal (closing e.1) e
  pure (closes ++ target.rows.filterMap (self.openTarget target prices current opening))

end PortfolioService

end PaperTrade.PortfolioManager
