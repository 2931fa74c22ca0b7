import PaperTrade.Worker.Executor

/-!
# The signal consumer

`process_signal_message`: the duplicate check, the parser, the fill price (resolved outside the
transaction) and the transaction around the handler. An error of the handler is caught inside the
transaction, which then commits.

The publication of position snapshots after a commit only reads the database and is left out here.
-/

namespace PaperTrade.Worker

open PaperTrade.Runtime

/-- A stream message together with what its processing takes from outside. -/
structure Delivery where
  data : RawSignal
  env : Env

namespace RawSignal

/-- `data.get("signal_id", "unknown")`. -/
def signalIdOr (data : RawSignal) : String := data.signalId.getD "unknown"

/-- `data.get("alpha_id", "unknown")`. -/
def alphaIdOr (data : RawSignal) : String := data.alphaId.getD "unknown"

/-- `data.get("type", "unknown")`. -/
def typeOr (data : RawSignal) : String := data.type.getD "unknown"

end RawSignal

/-- The request of an OPEN to the fill service. -/
def openRequest (signal : OpenSignal) : FillRequest :=
  ⟨signal.exchange, signal.symbol, signal.side, some signal.qty, some signal.entry, false, false⟩

/-- The request of a CLOSE to the fill service. -/
def closeRequest (signal : CloseSignal) (pos : PositionRow) : FillRequest :=
  let qty := match signal.qty with
    | some q => if 0 < q then some q else pos.qty
    | none => pos.qty
  ⟨pos.exchange, pos.symbol, pos.side, qty, Executor.closeRefPrice signal pos, true,
    Executor.closeRefIsExecutable signal⟩

/-- `fill_service.resolve`: a suspension, then the resolution, or `None` when it raised. -/
def resolve (service : FillService) (request : FillRequest) : Db (Option FillPrice) := do
  Executor.suspend
  pure ((service request).map .resolved)

/-- The fill price `process_signal_message` resolves before its transaction. -/
def resolveFill (env : Env) (signal : Signal) : Db (Option FillPrice) :=
  match env.fill, signal with
  | some service, .open signal => resolve service (openRequest signal)
  | some service, .close signal => do
    match ← getPosition signal.positionId with
    | some pos => resolve service (closeRequest signal pos)
    | none => pure none
  | _, _ => pure none

/-- The handler of a parsed signal. -/
def handle (self : Executor) (env : Env) (signal : Signal) (fillPrice : Option FillPrice) :
    Db Outcome :=
  match signal with
  | .open signal => self.processOpen env signal fillPrice
  | .modify signal => Executor.processModify signal
  | .close signal => self.processClose env signal fillPrice
  | .registerColumns signal => Executor.processRegisterColumns env signal

/-- The row `log_signal` writes for a message. -/
def logRow (env : Env) (data : RawSignal) : SignalRow :=
  ⟨data.signalIdOr, data.alphaIdOr, data.typeOr, data, env.now, false, none⟩

/-- The transaction of a message that does not parse. -/
def recordParseError (env : Env) (data : RawSignal) (e : PyError) : Db Unit := do
  logSignal env.now data.signalIdOr data.alphaIdOr data.typeOr data
  markSignalProcessed data.signalIdOr (some e)

/-- The transaction of a parsed signal. -/
def processParsed (self : Executor) (env : Env) (data : RawSignal) (signal : Signal)
    (fillPrice : Option FillPrice) : Db (Option Outcome) := do
  logSignal env.now data.signalIdOr data.alphaIdOr data.typeOr data
  tryCatch
    (do
      let result ← handle self env signal fillPrice
      markSignalProcessed data.signalIdOr none
      pure (some result))
    (fun e => do
      markSignalProcessed data.signalIdOr (some e)
      pure none)

/-- The duplicate check. -/
def isDuplicate (data : RawSignal) : Db Bool :=
  if data.signalIdOr ≠ "unknown" then signalProcessed data.signalIdOr else pure false

/-- `process_signal_message`. -/
def processSignalMessage (self : Executor) (env : Env) (data : RawSignal) : Db (Option Outcome) := do
  if ← isDuplicate data then pure none
  else
    match parseSignal data with
    | .error e => do
      transaction (recordParseError env data e)
      pure none
    | .ok signal => do
      let fillPrice ← resolveFill env signal
      transaction (processParsed self env data signal fillPrice)

/-- The database after a message has been processed with nothing else going on. -/
def deliver (self : Executor) (s : Tables) (m : Delivery) : Tables :=
  ((processSignalMessage self m.env m.data).run (.idle s)).2.committed

/-- The database after a list of messages. -/
def deliverAll (self : Executor) (s : Tables) (ms : List Delivery) : Tables :=
  ms.foldl (deliver self) s

end PaperTrade.Worker
