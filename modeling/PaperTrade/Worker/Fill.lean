import PaperTrade.Worker.Tables

/-!
# Fill prices

`fixed_pct_fill`, and what a fill service hands back. The service itself talks to an order book or
to the ticker cache, so here it is a function of its request that may fail.
-/

namespace PaperTrade.Worker

open PaperTrade.Runtime

/-- `position_side.upper() == "LONG"`. -/
def isLongSide (side : String) : Bool := upper side = ['L', 'O', 'N', 'G']

/-- `fixed_pct_fill`. -/
def fixedPctFill (price : PyFloat) (positionSide : String) (slippagePct : PyFloat)
    (isClose : Bool) : PyFloat :=
  let slip := price * (slippagePct / 1000)
  if isLongSide positionSide then
    if isClose then price - slip else price + slip
  else
    if isClose then price + slip else price - slip

/-- The arguments of `fill_service.resolve`. -/
structure FillRequest where
  exchange : String
  symbol : String
  positionSide : String
  qty : Option PyFloat
  refPrice : Option PyFloat
  isClose : Bool
  refIsExecutable : Bool

/-- `FillResolution`. -/
structure FillResolution where
  finalPrice : PyFloat
  orderSide : String
  initialPrice : PyFloat
  delayedPrice : Option PyFloat := none
  initialSource : String := "fixed_pct"
  delayedSource : Option String := none
  initialBookState : Option String := none
  delayedBookState : Option String := none
  initialSnapshotTimestamp : Option String := none
  delayedSnapshotTimestamp : Option String := none
  initialSnapshotAgeMs : Option PyFloat := none
  delayedSnapshotAgeMs : Option PyFloat := none
  requestedQty : Option PyFloat := some 0
  filledQty : Option PyFloat := some 0
  modelLatencyMs : PyFloat := 0
  adverseMovementBps : PyFloat := 0
  bookSlippageBps : Option PyFloat := none
  fallbackReason : Option String := none
  preSubscribeOutcome : Option String := none

/-- An optional value as JSON. -/
def jsonOpt {α : Type} (f : α → Json) : Option α → Json
  | some a => f a
  | none => .null

/-- `FillResolution.metadata`. -/
def FillResolution.metadata (r : FillResolution) : Entries :=
  [("final_price", .float r.finalPrice),
   ("order_side", .str r.orderSide),
   ("initial_price", .float r.initialPrice),
   ("delayed_price", jsonOpt .float r.delayedPrice),
   ("initial_source", .str r.initialSource),
   ("delayed_source", jsonOpt .str r.delayedSource),
   ("initial_book_state", jsonOpt .str r.initialBookState),
   ("delayed_book_state", jsonOpt .str r.delayedBookState),
   ("initial_snapshot_timestamp", jsonOpt .str r.initialSnapshotTimestamp),
   ("delayed_snapshot_timestamp", jsonOpt .str r.delayedSnapshotTimestamp),
   ("initial_snapshot_age_ms", jsonOpt .float r.initialSnapshotAgeMs),
   ("delayed_snapshot_age_ms", jsonOpt .float r.delayedSnapshotAgeMs),
   ("requested_qty", jsonOpt .float r.requestedQty),
   ("filled_qty", jsonOpt .float r.filledQty),
   ("model_latency_ms", .float r.modelLatencyMs),
   ("adverse_movement_bps", .float r.adverseMovementBps),
   ("book_slippage_bps", jsonOpt .float r.bookSlippageBps),
   ("fallback_reason", jsonOpt .str r.fallbackReason),
   ("pre_subscribe_outcome", jsonOpt .str r.preSubscribeOutcome)]

/-- A fill service: the resolution of a request, or `none` where `resolve` raises. -/
abbrev FillService := FillRequest → Option FillResolution

/-- A fill price: a plain float or a resolution. -/
inductive FillPrice
  | plain (x : PyFloat)
  | resolved (r : FillResolution)

/-- `Executor._fill_value_and_metadata`: the price. -/
def FillPrice.value : FillPrice → PyFloat
  | plain x => x
  | resolved r => r.finalPrice

/-- `Executor._fill_value_and_metadata`: the metadata. -/
def FillPrice.executionMetadata : FillPrice → Entries
  | plain _ => []
  | resolved r => [("execution", .obj r.metadata)]

end PaperTrade.Worker
