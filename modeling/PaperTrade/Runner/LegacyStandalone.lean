import PaperTrade.Runner.Strategy

/-!
# `LegacyStandaloneRunnerStrategy`

The adapter replaces `push_signal` of an old engine by `_capture_signal`: a signal is completed
with what the engine knows of its position and queued, and `_flush_signals` publishes the queue in
order. The engine itself is whatever pushes the signals; what the adapter reads of it is an
`Engine`.
-/

namespace PaperTrade.Runner

open PaperTrade.Runtime

/-- What the adapter reads of an engine: `_open_positions` by symbol, `config.EXCHANGE` and
`config.FEE_PCT`. -/
structure Engine where
  openPositions : List (String × Entries) := []
  exchange : Option Json := none
  feePct : Option Json := none

/-- The configuration of the adapter. -/
structure LegacyStandalone where
  alphaId : String
  version : String
  primaryTf : String := "15m"

/-- `str(v or "")`. -/
def strOrEmpty (v : Json) : Text := if v.truthy then pyStr v else .chars ""

/-- `d.setdefault(k, v)`. -/
def setDefault (d : Entries) (k : String) (v : Json) : Entries :=
  match d.get? k with
  | some _ => d
  | none => Entries.set d k v

/-- `d.get(k)`. -/
def getOrNone (d : Entries) (k : String) : Json := (d.get? k).getD .null

/-- A captured signal. -/
structure Captured where
  type : String
  fields : Entries

namespace LegacyStandalone

variable (x : LegacyStandalone)

/-- The position of the engine with this id, and its symbol. -/
def positionOf (engine : Engine) (positionId : String) : Option (String × Entries) :=
  if positionId = "" then none
  else engine.openPositions.find? fun p => (pyStr (getOrNone p.2 "position_id")).spell = positionId

/-- `_enrich_signal_fields`. -/
def enrichSignalFields (engine : Engine) (fields : Entries) : Entries :=
  let position := positionOf engine (strOrEmpty (getOrNone fields "position_id")).spell
  let fields := match position with
    | some (symbol, _) => setDefault fields "symbol" (.str symbol)
    | none => fields
  let fields := setDefault fields "tf" (.str x.primaryTf)
  let fields := match position with
    | some (_, p :: ps) =>
      let pos : Entries := p :: ps
      let fields := setDefault fields "side" (getOrNone pos "side")
      let fields := setDefault fields "entry" (getOrNone pos "entry")
      setDefault fields "signal_candle_open_ms" (getOrNone pos "entry_candle_open_ms")
    | _ => fields
  let fields := match fields.get? "exchange" with
    | some _ => fields
    | none => Entries.set fields "exchange"
        (.str (pyStr (engine.exchange.getD (.str "binance"))).spell)
  match fields.get? "fee_pct", engine.feePct with
  | none, some fee => Entries.set fields "fee_pct" fee
  | _, _ => fields

/-- What `_capture_signal` queues. -/
def captured (engine : Engine) (type : String) (fields : Entries) : Captured :=
  ⟨type, x.enrichSignalFields engine fields⟩

/-- The call of `emit_signal` for a queued signal. -/
def callOf (s : Captured) : Call := ⟨⟨x.alphaId, x.version⟩, s.type, s.fields⟩

variable (digest : Logical → String) (env : ℕ → DispatchEnv)

/-- `_flush_signals`; the state is the queue. -/
def flushSignals : List Captured → Method (List Captured) Unit
  | [] => pure ()
  | s :: rest => do
    modifyState fun _ => rest
    emitSignal digest env (x.callOf s)
    flushSignals rest

/-- A `push_signal` of the engine, a flush, or a new process. -/
inductive Event
  | push (engine : Engine) (type : String) (fields : Entries)
  | flush
  | restart (ok : Bool)

/-- One event; an append that raises leaves the rest of the queue in place. -/
def step (w : List Captured × Outbox) : Event → List Captured × Outbox
  | .push engine type fields => (w.1 ++ [x.captured engine type fields], w.2)
  | .flush => ((x.flushSignals digest env w.1).run w).2
  | .restart ok => ([], w.2.restart ok)

/-- A run of the adapter. -/
def run (w : List Captured × Outbox) (events : List Event) : List Captured × Outbox :=
  events.foldl (x.step digest env) w

/-- The signals captured in a run. -/
def capturedIn (events : List Event) : List Captured :=
  events.filterMap fun
    | .push engine type fields => some (x.captured engine type fields)
    | _ => none

lemma capturedIn_append (events events' : List Event) :
    x.capturedIn (events ++ events') = x.capturedIn events ++ x.capturedIn events' :=
  List.filterMap_append ..

end LegacyStandalone

end PaperTrade.Runner
