import PaperTrade.Runner.LegacyStandalone

/-!
# The book of an old engine

An engine enters and leaves its `_open_positions` together with a `push_signal`: a new position is stored
and its OPEN pushed, a CLOSE is pushed and the position removed, and a MODIFY or a partial CLOSE leaves the
position where it is. Which of these an engine does in a scan is up to the engine; the adapter flushes the
captured signals at the end of the scan.
-/

namespace PaperTrade.Runner

open PaperTrade.Runtime

/-- The keyword arguments of a signal, without the ones that name it. -/
structure SignalFields where
  entries : Entries
  nodup : (entries.map Prod.fst).Nodup
  named : ∀ p ∈ entries, p.1 ≠ "type" ∧ p.1 ≠ "position_id"

/-- What an engine does with a position. -/
inductive EngineAction
  /-- a new position of a free symbol, with the OPEN of `_open_new_position` -/
  | enter (symbol : String) (position : Entries) (fields : SignalFields)
  /-- the full CLOSE of `_close_position` -/
  | leave (symbol : String) (fields : SignalFields) (full : ∀ p ∈ fields.entries, p.1 ≠ "qty")
  /-- a MODIFY, or a CLOSE of a part: `qty` is given -/
  | adjust (symbol : String) (part : Option PyFloat) (position : Entries) (fields : SignalFields)

/-- An engine, the captured signals that are pending, and the outbox of the adapter. -/
structure LegacyState where
  engine : Engine := {}
  pending : List Captured := []
  outbox : Outbox
  /-- how many ids have been drawn -/
  drawn : ℕ := 0

namespace LegacyStandalone

variable (x : LegacyStandalone) (digest : Logical → String) (uuid4 : ℕ → String)
  (env : ℕ → DispatchEnv)

/-- `_open_positions.get(symbol)`. -/
def heldAt (engine : Engine) (symbol : String) : Option (String × Entries) :=
  engine.openPositions.find? fun e => e.1 = symbol

/-- The id of a position of an engine. -/
def idOf (position : Entries) : String := (pyStr (getOrNone position "position_id")).spell

/-- `push_signal`, which is `_capture_signal`. -/
def push (s : LegacyState) (engine : Engine) (type : String) (fields : Entries) : LegacyState :=
  { s with pending := s.pending ++ [x.captured engine type fields] }

/-- One action of the engine; one that does not fit the book is not taken. -/
def act (s : LegacyState) : EngineAction → LegacyState
  | .enter symbol position fields =>
    match heldAt s.engine symbol with
    | some _ => s
    | none =>
      let positionId := Json.str (uuid4 s.drawn)
      let engine := { s.engine with
        openPositions := s.engine.openPositions ++ [(symbol, ("position_id", positionId) :: position)] }
      let s := x.push s engine "OPEN" (("position_id", positionId) :: fields.entries)
      { s with engine, drawn := s.drawn + 1 }
  | .leave symbol fields _ =>
    match heldAt s.engine symbol with
    | none => s
    | some e =>
      let s := x.push s s.engine "CLOSE" (("position_id", .str (idOf e.2)) :: fields.entries)
      let engine := { s.engine with
        openPositions := s.engine.openPositions.filter fun e => e.1 ≠ symbol }
      { s with engine }
  | .adjust symbol part position fields =>
    match heldAt s.engine symbol with
    | none => s
    | some e =>
      let positionId := Json.str (idOf e.2)
      let engine := { s.engine with
        openPositions := s.engine.openPositions.map fun e =>
          if e.1 = symbol then (symbol, ("position_id", positionId) :: position) else e }
      let s := match part with
        | some qty => x.push s s.engine "CLOSE"
            (("position_id", positionId) :: ("qty", .float qty) ::
              fields.entries.filter fun p => p.1 ≠ "qty")
        | none => x.push s s.engine "MODIFY" (("position_id", positionId) :: fields.entries)
      { s with engine }

/-- `_flush_signals` at the end of a scan. -/
def flush (s : LegacyState) : LegacyState :=
  let w := ((x.flushSignals digest env s.pending).run (s.pending, s.outbox)).2
  { s with pending := w.1, outbox := w.2 }

/-- A scan, a price alert or `manage_positions`: what the engine does, and then the flush. -/
def scan (s : LegacyState) (actions : List EngineAction) : LegacyState :=
  x.flush digest env (actions.foldl (x.act uuid4) s)

/-- A run of a process that starts with the book it reconciles. -/
def runScans (d : Dispatcher) (engine : Engine) (scans : List (List EngineAction)) : LegacyState :=
  scans.foldl (x.scan digest uuid4 env) { engine, outbox := { dispatcher := d } }

end LegacyStandalone

end PaperTrade.Runner
