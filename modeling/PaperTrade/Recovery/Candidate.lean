import PaperTrade.Worker.Behaviour

/-!
# The candidate database

`build_main_candidate` applies a ledger of closes and opens to a copy of the main database, with the
formulas of the worker written once more. Of the JSON that it writes with sorted keys and without
blanks only the value is kept, in the order in which the source builds it.
-/

namespace PaperTrade.Recovery

open PaperTrade.Runtime PaperTrade.Worker

/-! ## The ledger -/

/-- `Side`. -/
inductive Side
  | long
  | short
deriving DecidableEq

/-- `side.value`. -/
def Side.value : Side → String
  | long => "LONG"
  | short => "SHORT"

/-- A `datetime` with its `isoformat()`, which `fromisoformat` reads back. -/
structure EventTime where
  time : DateTime
  isoformat : String
  reads : DateTime.parse isoformat = some time

structure CloseLedgerEntry where
  alphaId : String
  signalId : String
  positionId : String
  symbol : String
  side : Side
  decisionPrice : PyFloat
  candleOpenMs : ℤ
  eventAt : EventTime
  feePct : PyFloat

structure OpenLedgerEntry where
  alphaId : String
  signalId : String
  positionId : String
  symbol : String
  side : Side
  decisionPrice : PyFloat
  qty : PyFloat
  weight : PyFloat
  strategyLeverage : PyFloat
  candleOpenMs : ℤ
  eventAt : EventTime
  feePct : PyFloat

inductive LedgerEntry
  | close (entry : CloseLedgerEntry)
  | open (entry : OpenLedgerEntry)

namespace LedgerEntry

def alphaId : LedgerEntry → String
  | close entry => entry.alphaId
  | .open entry => entry.alphaId

def signalId : LedgerEntry → String
  | close entry => entry.signalId
  | .open entry => entry.signalId

def symbol : LedgerEntry → String
  | close entry => entry.symbol
  | .open entry => entry.symbol

def positionId : LedgerEntry → String
  | close entry => entry.positionId
  | .open entry => entry.positionId

def candleOpenMs : LedgerEntry → ℤ
  | close entry => entry.candleOpenMs
  | .open entry => entry.candleOpenMs

def eventAt : LedgerEntry → EventTime
  | close entry => entry.eventAt
  | .open entry => entry.eventAt

/-- `"CLOSE" if isinstance(entry, CloseLedgerEntry) else "OPEN"`. -/
def signalType : LedgerEntry → String
  | close _ => "CLOSE"
  | .open _ => "OPEN"

end LedgerEntry

/-! ## The database -/

/-- A row of `signals`. -/
structure StoredSignal where
  id : ℕ
  signalId : String
  alphaId : String
  type : String
  payload : Text
  receivedAt : String
  processed : Bool
  error : Option String
deriving DecidableEq

/-- The tables of the main database that the recovery touches, the registered alphas and the last id
that `signals` has given out. -/
structure MainDb where
  alphas : List String
  positions : Table PositionRow.positionId
  trades : Table TradeRow.tradeId
  signals : Table StoredSignal.id
  sequence : ℕ
  ids_le : ∀ r ∈ signals.rows, r.id ≤ sequence

/-- Why no candidate is built. -/
inductive CandidateError
  /-- `missing position: …` -/
  | missingPosition (positionId : String)
  /-- `position identity mismatch: …` -/
  | identityMismatch (positionId : String)
  /-- `FOREIGN KEY constraint failed` -/
  | foreignKeyFailed
  /-- anything that Python or another constraint raises -/
  | python (e : PyError)

/-- An operation of Python inside the build. -/
def lift {α : Type} (x : Except PyError α) : Except CandidateError α := x.mapError .python

/-- `_fixed_fill`. -/
def fixedFill (price : PyFloat) (side : Side) (slippagePct : PyFloat) (isClose : Bool) : PyFloat :=
  let slip := price * (slippagePct / 1000)
  match side with
  | .long => if isClose then price - slip else price + slip
  | .short => if isClose then price + slip else price - slip

/-- `_direction`. -/
def sideDirection : Side → PyFloat
  | .long => .fin 1
  | .short => .fin (-1)

/-- `json.dumps(…, separators=(",", ":"), sort_keys=True)`. -/
def compactDumps (entries : Entries) : Text := .json (.obj entries)

/-- The execution that all recovered rows have. -/
def historicalExecution : Json := .obj [("initial_source", .str "historical_fixed_pct")]

/-- `_merge_close_metadata`. -/
def mergeCloseMetadata (raw : Text) (entry : CloseLedgerEntry) (fillPrice : PyFloat) : Text :=
  let closeMetadata : Json := .obj [("decision_price", .float entry.decisionPrice),
    ("recorded_fill_price", .float fillPrice), ("signal_candle_open_ms", .int entry.candleOpenMs),
    ("execution", historicalExecution)]
  match raw.loads with
  | some (.obj parsed) => compactDumps (Entries.set parsed "close" closeMetadata)
  | _ => compactDumps [("open_raw", .str raw.spell), ("close", closeMetadata)]

/-- `_insert_signal`: the payload. -/
def auditPayload (recoveredAt : String) (entry : LedgerEntry) : Text :=
  compactDumps [("type", .str entry.signalType), ("alpha_id", .str entry.alphaId),
    ("signal_id", .str entry.signalId), ("symbol", .str entry.symbol),
    ("position_id", .str entry.positionId), ("timestamp", .str entry.eventAt.isoformat),
    ("signal_candle_open_ms", .str (toString entry.candleOpenMs)),
    ("recovery", .obj [("recovered_at", .str recoveredAt), ("source", .str "staged_replay")])]

namespace MainDb

variable (db : MainDb)

/-- `INSERT INTO signals`: the id is a new one. -/
def insertSignal (recoveredAt : String) (entry : LedgerEntry) : MainDb :=
  { db with
    signals := ⟨db.signals.rows ++ [⟨db.sequence + 1, entry.signalId, entry.alphaId,
      entry.signalType, auditPayload recoveredAt entry, recoveredAt, true, none⟩], by
        have hfresh : ∀ r ∈ db.signals.rows, r.id ≠ db.sequence + 1 := by
          intro r hr
          have := db.ids_le r hr
          omega
        rw [List.map_append, List.nodup_append]
        refine ⟨db.signals.nodup_keys, List.nodup_singleton _, ?_⟩
        intro a ha b hb
        obtain ⟨r, hr, rfl⟩ := List.mem_map.mp ha
        rw [List.map_singleton, List.mem_singleton] at hb
        exact hb ▸ hfresh r hr⟩
    sequence := db.sequence + 1
    ids_le := by
      intro r hr
      rcases List.mem_append.mp hr with hr | hr
      · exact (db.ids_le r hr).trans (Nat.le_succ _)
      · rw [List.mem_singleton.mp hr] }

/-- `INSERT INTO trades`, with `PRAGMA foreign_keys = ON`. -/
def insertTrade (trade : TradeRow) : Except CandidateError MainDb :=
  if trade.alphaId ∉ db.alphas then .error .foreignKeyFailed
  else (lift (insertUnique "trades.trade_id" db.trades trade)).map fun trades =>
    { db with trades := trades }

/-- `INSERT INTO positions`, with `PRAGMA foreign_keys = ON`. -/
def insertPosition (position : PositionRow) : Except CandidateError MainDb :=
  if position.alphaId ∉ db.alphas then .error .foreignKeyFailed
  else (lift (insertUnique "positions.position_id" db.positions position)).map fun positions =>
    { db with positions := positions }

/-- `DELETE FROM positions WHERE position_id = ?`. -/
def deletePosition (positionId : String) : MainDb :=
  { db with positions := db.positions.erase positionId }

end MainDb

/-! ## The build -/

section Build

variable (recoveredAt : String) (slippagePct : PyFloat)

/-- `float(position["fee_pct"] or entry.fee_pct)`. -/
def closeFeePct (position : PositionRow) (entry : CloseLedgerEntry) : PyFloat :=
  match position.feePct with
  | some feePct => if feePct.truthy then feePct else entry.feePct
  | none => entry.feePct

/-- `_apply_close`: the row of `trades`. -/
def closedTrade (position : PositionRow) (entry : CloseLedgerEntry) : Except PyError TradeRow := do
  let exitPrice := fixedFill entry.decisionPrice entry.side slippagePct true
  let qty ← need position.qty
  let entryPrice ← need position.entryPrice
  let fee := (entryPrice + exitPrice) * qty * closeFeePct position entry
  let pnl := (exitPrice - entryPrice) * qty * sideDirection entry.side - fee
  let capital := entryPrice * qty
  let openedAt ← isoTime position.openedAt
  match entry.eventAt.time.sub? openedAt with
  | none => .error .naiveAndAware
  | some us => pure {
      tradeId := entry.positionId
      positionId := entry.positionId
      alphaId := entry.alphaId
      signalId := position.signalId
      symbol := entry.symbol
      side := entry.side.value
      entryPrice := position.entryPrice
      exitPrice := real exitPrice
      qty := real qty
      pnl := real pnl
      pnlPercent := real (if capital.truthy then pnl / capital * .fin 100 else .fin 0)
      leverage := position.leverage
      tp := position.tp
      sl := position.sl
      reason := "REBALANCE"
      durationHours := real (.fin (us / 3600000000))
      openedAt := position.openedAt
      closedAt := entry.eventAt.isoformat
      metadata := mergeCloseMetadata
        (if position.metadata.isEmpty then .chars "{}" else position.metadata) entry exitPrice
      fee := real fee
      exchange := exchangeOr position.exchange }

/-- `_apply_close`. -/
def applyClose (db : MainDb) (entry : CloseLedgerEntry) : Except CandidateError MainDb :=
  match db.positions.find? entry.positionId with
  | none => .error (.missingPosition entry.positionId)
  | some position =>
    if position.alphaId ≠ entry.alphaId ∨ position.symbol ≠ entry.symbol ∨
        position.side ≠ entry.side.value then
      .error (.identityMismatch entry.positionId)
    else do
      let db := db.insertSignal recoveredAt (.close entry)
      let trade ← lift (closedTrade slippagePct position entry)
      let db ← db.insertTrade trade
      pure (db.deletePosition entry.positionId)

/-- `_apply_open`: the row of `positions`. -/
def openedPosition (entry : OpenLedgerEntry) : PositionRow :=
  let fillPrice := fixedFill entry.decisionPrice entry.side slippagePct false
  { positionId := entry.positionId
    alphaId := entry.alphaId
    signalId := entry.signalId
    symbol := entry.symbol
    side := entry.side.value
    entryPrice := real fillPrice
    qty := real entry.qty
    tp := none
    sl := none
    leverage := 1
    openedAt := entry.eventAt.isoformat
    metadata := compactDumps [("decision_price", .float entry.decisionPrice),
      ("recorded_fill_price", .float fillPrice), ("weight", .float entry.weight),
      ("strategy_leverage", .float entry.strategyLeverage),
      ("entry_candle_open_ms", .int entry.candleOpenMs), ("execution", historicalExecution)]
    exchange := "binance"
    feePct := real entry.feePct }

/-- `_apply_open`. -/
def applyOpen (db : MainDb) (entry : OpenLedgerEntry) : Except CandidateError MainDb :=
  (db.insertSignal recoveredAt (.open entry)).insertPosition (openedPosition slippagePct entry)

/-- One entry of the ledger. -/
def applyEntry (db : MainDb) : LedgerEntry → Except CandidateError MainDb
  | .close entry => applyClose recoveredAt slippagePct db entry
  | .open entry => applyOpen recoveredAt slippagePct db entry

/-- `build_main_candidate`: the candidate of a ledger; nothing is committed when an entry raises. -/
def buildMainCandidate (entries : List LedgerEntry) (source : MainDb) :
    Except CandidateError MainDb :=
  entries.foldlM (applyEntry recoveredAt slippagePct) source

end Build

end PaperTrade.Recovery
