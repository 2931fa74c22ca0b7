import PaperTrade.Worker.Database
import PaperTrade.Worker.Fill
import PaperTrade.Worker.Models

/-!
# The executor

`Executor.process_open`, `process_modify`, `process_close`, `process_register_columns` and the
TP/SL pass `check_tpsl_hits`. Clock readings, fresh ids and fill services come from outside the
program and are arguments.
-/

namespace PaperTrade.Worker

open PaperTrade.Runtime

/-- The configuration of an `Executor`. -/
structure Executor where
  slippagePct : PyFloat := .fin (5 / 100)
  duplicatePolicy : String := "reject"

/-- What one message takes from outside: the clock, a fresh id and the fill service. -/
structure Env where
  now : String
  uuid : String
  fill : Option FillService := none

/-- What a handler returns. -/
inductive Outcome
  | opened (positionId : String) (fillPrice : PyFloat)
  | modified (positionId : String)
  | closed (positionId : String) (exitPrice : Option PyFloat) (closed : Bool)
      (closedQty remainingQty : PyFloat)
  | columnsRegistered (alphaId : String) (count : ℕ)

namespace Executor

/-- `Executor._apply_slippage`. -/
def applySlippage (self : Executor) (price : PyFloat) (side : String) (isClose : Bool) : PyFloat :=
  fixedPctFill price side self.slippagePct isClose

/-! ## OPEN -/

/-- `Executor.allows_duplicate_position`. -/
def allowsDuplicatePosition (signal : OpenSignal) : Bool :=
  metadataFlag signal.metadata "allow_duplicate_position"

/-- The fill price of an OPEN. -/
def openFill (self : Executor) (signal : OpenSignal) (fillPrice : Option FillPrice) : FillPrice :=
  fillPrice.getD (.plain (self.applySlippage signal.entry signal.side false))

/-- The row `process_open` creates. -/
def openRow (self : Executor) (env : Env) (signal : OpenSignal) (fillPrice : Option FillPrice) :
    PositionRow :=
  let fill := self.openFill signal fillPrice
  { positionId := if signal.positionId = "" then env.uuid else signal.positionId
    alphaId := signal.alphaId
    signalId := signal.signalId
    symbol := signal.symbol
    side := signal.side
    entryPrice := real fill.value
    qty := real signal.qty
    tp := signal.tp.bind real
    sl := signal.sl.bind real
    leverage := signal.leverage
    openedAt := signal.timestamp
    metadata := mergeMetadata signal.metadata
      ([("decision_price", .float signal.entry), ("recorded_fill_price", .float fill.value)] ++
        fill.executionMetadata)
    exchange := signal.exchange
    feePct := real signal.feePct }

/-- `Executor.process_open`. -/
def processOpen (self : Executor) (env : Env) (signal : OpenSignal)
    (fillPrice : Option FillPrice) : Db Outcome := do
  registerAlpha env.now signal.alphaId
  let existing ← getOpenPositionByAlphaSymbol signal.alphaId signal.symbol
  if existing.isSome ∧ self.duplicatePolicy = "reject" ∧ ¬ allowsDuplicatePosition signal then
    throw (PyError.duplicatePosition signal.alphaId signal.symbol)
  else do
    let row := self.openRow env signal fillPrice
    createPosition row
    pure (.opened row.positionId (self.openFill signal fillPrice).value)

/-! ## MODIFY -/

/-- The trailing-stop check of `process_modify`. -/
def checkStop (pos : PositionRow) (sl : Option PyFloat) : Except PyError Unit :=
  match sl, pos.sl with
  | some new, some old =>
    if pos.side = "LONG" ∧ new < old then .error (.stopAgainstLong new old)
    else if pos.side = "SHORT" ∧ old < new then .error (.stopAgainstShort new old)
    else .ok ()
  | _, _ => .ok ()

/-- `Executor.process_modify`. -/
def processModify (signal : ModifySignal) : Db Outcome := do
  match ← getPosition signal.positionId with
  | none => throw (PyError.positionNotFound signal.positionId)
  | some pos =>
    Coro.ofExcept (checkStop pos signal.sl)
    modifyPosition signal.positionId signal.tp signal.sl signal.metadata
    pure (.modified signal.positionId)

/-! ## CLOSE -/

/-- `Executor.close_ref_price`: `signal.exit_price or pos["entry_price"]`. -/
def closeRefPrice (signal : CloseSignal) (pos : PositionRow) : Option PyFloat :=
  match signal.exitPrice with
  | some x => if x.truthy then some x else pos.entryPrice
  | none => pos.entryPrice

/-- `Executor.close_ref_is_executable`. -/
def closeRefIsExecutable (signal : CloseSignal) : Bool :=
  metadataFlag signal.metadata "ref_is_executable"

/-- The quantity checks of `process_close`. -/
def checkCloseQty (signal : CloseSignal) (pos : PositionRow) : Except PyError PyFloat := do
  let closeQty ← need (signal.qty.or pos.qty)
  if closeQty ≤ 0 then throw (.closeQtyNotPositive closeQty)
  let openQty ← need pos.qty
  if openQty + dust < closeQty then throw (.closeQtyExceeds closeQty openQty)
  pure closeQty

/-- The exit price of a CLOSE and its execution metadata. -/
def closeFill (self : Executor) (signal : CloseSignal) (pos : PositionRow)
    (fillPrice : Option FillPrice) : Except PyError (Option PyFloat × Entries) :=
  match fillPrice with
  | some fill => .ok (some fill.value, fill.executionMetadata)
  | none =>
    if closeRefIsExecutable signal then .ok (closeRefPrice signal pos, [])
    else do
      let raw ← need (closeRefPrice signal pos)
      pure (some (self.applySlippage raw pos.side true), [])

/-- The metadata `process_close` hands on. -/
def closeMetadata (signal : CloseSignal) (pos : PositionRow) (exitPrice : Option PyFloat)
    (execution : Entries) : Text :=
  mergeMetadata signal.metadata
    ([("decision_price", jsonOpt .float (closeRefPrice signal pos)),
      ("recorded_fill_price", jsonOpt .float exitPrice),
      ("fill_price", jsonOpt .float exitPrice)] ++ execution)

/-- `Executor.process_close`. -/
def processClose (self : Executor) (env : Env) (signal : CloseSignal)
    (fillPrice : Option FillPrice) : Db Outcome := do
  match ← getPosition signal.positionId with
  | none => throw (PyError.positionNotFound signal.positionId)
  | some pos =>
    let closeQty ← Coro.ofExcept (checkCloseQty signal pos)
    let (exitPrice, execution) ← Coro.ofExcept (self.closeFill signal pos fillPrice)
    closePosition env.uuid signal.positionId exitPrice signal.reason signal.timestamp
      (closeMetadata signal pos exitPrice execution) (some closeQty)
    let openQty ← Coro.ofExcept (need pos.qty)
    let remainingQty := (openQty - closeQty).max 0
    pure (.closed signal.positionId exitPrice (remainingQty ≤ dust) closeQty remainingQty)

/-! ## REGISTER_COLUMNS -/

/-- `Executor.process_register_columns`. -/
def processRegisterColumns (env : Env) (signal : RegisterColumnsSignal) : Db Outcome := do
  match signal.columns.loads with
  | none => throw (PyError.invalidColumns signal.columns)
  | some (.arr columns) => do
    registerAlpha env.now signal.alphaId
    registerAlphaColumns signal.alphaId columns
    pure (.columnsRegistered signal.alphaId columns.length)
  | some _ => throw PyError.columnsNotArray

/-! ## The TP/SL pass -/

/-- `PriceQuote`. -/
structure PriceQuote where
  price : PyFloat
  source : String
  isExecutable : Bool

/-- What the pass takes from outside: the clock, fresh ids per position, prices and fills. -/
structure TpslEnv where
  now : String
  uuid : String → String
  price : String → String → Option PriceQuote
  fill : Option FillService := none

/-- The reason and the stop price when `price` hits the TP or the SL of a position. -/
def tpslHit (pos : PositionRow) (price : PyFloat) : Option (String × PyFloat) :=
  let hit := fun (stop : Option PyFloat) (test : PyFloat → Bool) => stop.filter test
  if pos.side = "LONG" then
    match hit pos.tp (· ≤ price), hit pos.sl (price ≤ ·) with
    | some tp, _ => some ("TP_HIT", tp)
    | none, some sl => some ("SL_HIT", sl)
    | none, none => none
  else if pos.side = "SHORT" then
    match hit pos.tp (price ≤ ·), hit pos.sl (· ≤ price) with
    | some tp, _ => some ("TP_HIT", tp)
    | none, some sl => some ("SL_HIT", sl)
    | none, none => none
  else none

/-- The fill of an automatic close: the resolver's when there is one and it does not raise. -/
def tpslFill (self : Executor) (env : TpslEnv) (pos : PositionRow) (quote : PriceQuote) :
    FillPrice :=
  let fixed := FillPrice.plain (self.applySlippage quote.price pos.side true)
  match env.fill with
  | none => fixed
  | some resolve =>
    match resolve ⟨pos.exchange, pos.symbol, pos.side, pos.qty, some quote.price, true,
        quote.isExecutable⟩ with
    | some r => .resolved r
    | none => fixed

/-- The metadata of an automatic close. -/
def tpslMetadata (reason : String) (stop : PyFloat) (quote : PriceQuote) (fill : FillPrice) :
    Text :=
  .json (.obj (Entries.update
    [("close_model", .str "worker_tpsl_auto"),
     ("reason", .str reason),
     ("stop_price", .float stop),
     ("trigger_price", .float quote.price),
     ("raw_fill_price", .float quote.price),
     ("fill_price", .float fill.value),
     ("fill_reference_source", .str quote.source),
     ("ref_is_executable", .bool quote.isExecutable)]
    fill.executionMetadata))

/-- `await fill_resolver(…)`: a suspension that leaves the database alone. -/
def suspend : Db Unit := .await id fun _ => .done (.ok ())

/-- The body of the loop of `check_tpsl_hits`. -/
def checkPosition (self : Executor) (env : TpslEnv) (pos : PositionRow) :
    Db (Option (String × String × PyFloat)) :=
  match env.price pos.symbol pos.side with
  | none => pure none
  | some quote =>
    match tpslHit pos quote.price with
    | none => pure none
    | some (reason, stop) => do
      if env.fill.isSome then suspend
      let fill := self.tpslFill env pos quote
      closePosition (env.uuid pos.positionId) pos.positionId (some fill.value) reason env.now
        (tpslMetadata reason stop quote fill) none
      pure (some (pos.positionId, reason, fill.value))

/-- The loop of `check_tpsl_hits`. -/
def checkPositions (self : Executor) (env : TpslEnv) :
    List PositionRow → Db (List (String × String × PyFloat))
  | [] => pure []
  | pos :: rest => do
    let hit ← self.checkPosition env pos
    let hits ← self.checkPositions env rest
    pure (hit.toList ++ hits)

/-- `Executor.check_tpsl_hits`. -/
def checkTpslHits (self : Executor) (env : TpslEnv) : Db (List (String × String × PyFloat)) := do
  let positions ← getPositionsWithTpsl
  self.checkPositions env positions

end Executor

end PaperTrade.Worker
