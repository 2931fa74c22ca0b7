import PaperTrade.Runtime.Table
import PaperTrade.Runtime.Text

/-!
# The worker's tables

The rows of `Database._create_tables` and the errors the worker raises. A `REAL` column is an
`Option PyFloat`: SQLite stores NaN as `NULL`, so a NaN never comes back out. A `TEXT` column that
only carries identifiers or timestamps is a `String`, one that holds JSON a `Text`.
-/

namespace PaperTrade.Worker

open PaperTrade.Runtime

/-- What the worker raises; `str(exc)` is what `signals.error` records. -/
inductive PyError
  /-- `Unknown signal type: …` -/
  | unknownSignalType (t : String)
  /-- `KeyError` of a missing field or key -/
  | keyError (key : String)
  /-- `could not convert string to float: …` -/
  | notAFloat (s : Text)
  /-- `… has non-finite … for …: …` -/
  | nonFinite (signalType key ref : String) (raw : Text)
  /-- what `int(v)` raises -/
  | intOf (e : Json.IntError)
  /-- `Python int too large to convert to SQLite INTEGER` -/
  | intTooLarge
  /-- `Alpha … already has an open position on …` -/
  | duplicatePosition (alphaId symbol : String)
  /-- `Position not found: …` -/
  | positionNotFound (positionId : String)
  /-- `Trailing SL cannot move against LONG position: … < …` -/
  | stopAgainstLong (sl current : PyFloat)
  /-- `Trailing SL cannot move against SHORT position: … > …` -/
  | stopAgainstShort (sl current : PyFloat)
  /-- `Close qty must be positive: …` -/
  | closeQtyNotPositive (qty : PyFloat)
  /-- `Close qty exceeds open qty: … > …` -/
  | closeQtyExceeds (qty openQty : PyFloat)
  /-- `Invalid columns JSON: …` -/
  | invalidColumns (columns : Text)
  /-- `columns must be a JSON array` -/
  | columnsNotArray
  /-- an operator or a call on a value of the wrong type, `None` included -/
  | typeError
  /-- `Invalid isoformat string: …` -/
  | invalidIsoformat (s : String)
  /-- `can't compare (or subtract) offset-naive and offset-aware datetimes` -/
  | naiveAndAware
  /-- `date value out of range` -/
  | dateOverflow
  /-- `UNIQUE constraint failed: …` -/
  | uniqueFailed (column : String)
  /-- `NOT NULL constraint failed: …` -/
  | notNullFailed (column : String)
  /-- `Error binding parameter …: type '…' is not supported` -/
  | unsupportedParameter
  /-- `cannot start a transaction within a transaction` -/
  | nestedTransaction
  /-- `virtual position not found: …` -/
  | virtualPositionNotFound (positionId : String)
  /-- `unsupported virtual ledger event: …` -/
  | unsupportedVirtualEvent (t : String)

/-- An operand that must not be `None`. -/
def need {α : Type} : Option α → Except PyError α
  | some a => .ok a
  | none => .error .typeError

/-- What a `REAL` column keeps of a float. -/
def real : PyFloat → Option PyFloat
  | .nan => none
  | x => some x

@[simp] theorem real_fin (q : ℚ) : real (.fin q) = some (.fin q) := rfl

theorem real_of_ne_nan {x : PyFloat} (h : x ≠ .nan) : real x = some x := by
  cases x with
  | nan => exact absurd rfl h
  | inf _ => rfl
  | fin _ => rfl

/-- A Python `int` as an SQLite `INTEGER`. -/
def fitsInt64 (i : ℤ) : Bool := -9223372036854775808 ≤ i ∧ i ≤ 9223372036854775807

/-! ## Rows -/

structure AlphaRow where
  alphaId : String
  displayName : String
  createdAt : String
  status : String
deriving DecidableEq

structure PositionRow where
  positionId : String
  alphaId : String
  signalId : String
  symbol : String
  side : String
  entryPrice : Option PyFloat
  qty : Option PyFloat
  tp : Option PyFloat
  sl : Option PyFloat
  leverage : ℤ
  openedAt : String
  metadata : Text
  exchange : String
  feePct : Option PyFloat

structure TradeRow where
  tradeId : String
  positionId : String
  alphaId : String
  signalId : String
  symbol : String
  side : String
  entryPrice : Option PyFloat
  exitPrice : Option PyFloat
  qty : Option PyFloat
  pnl : Option PyFloat
  pnlPercent : Option PyFloat
  leverage : ℤ
  tp : Option PyFloat
  sl : Option PyFloat
  reason : String
  durationHours : Option PyFloat
  openedAt : String
  closedAt : String
  metadata : Text
  fee : Option PyFloat
  exchange : String

structure VirtualPositionRow where
  positionId : String
  alphaId : String
  signalId : String
  symbol : String
  side : String
  entryPrice : Option PyFloat
  qty : Option PyFloat
  leverage : ℤ
  openedAt : String
  metadata : Text
  exchange : String

structure VirtualTradeEventRow where
  eventId : String
  alphaId : String
  eventType : String
  payload : Text
  processedAt : String

/-- A stored value of a column whose type is only an affinity. -/
inductive SqlValue
  | null
  | integer (i : ℤ)
  | real (x : PyFloat)
  | text (s : String)
deriving DecidableEq

structure AlphaColumnRow where
  alphaId : String
  columnKey : String
  label : String
  type : String
  decimals : SqlValue
  sortOrder : ℕ
deriving DecidableEq

/-- The fields of a stream message that the worker reads; `none` is an absent field. A field that
is only copied or compared is a `String`, one that is parsed a `Text`. -/
structure RawSignal where
  type : Option String := none
  alphaId : Option String := none
  signalId : Option String := none
  symbol : Option String := none
  side : Option String := none
  timestamp : Option String := none
  positionId : Option String := none
  exchange : Option String := none
  reason : Option String := none
  entry : Option Text := none
  qty : Option Text := none
  tp : Option Text := none
  sl : Option Text := none
  leverage : Option Text := none
  feePct : Option Text := none
  exitPrice : Option Text := none
  metadata : Option Text := none
  columns : Option Text := none

/-- A row of `signals`; the rows stand in the order of their `id`. `payload` is `json.dumps` of the
message. -/
structure SignalRow where
  signalId : String
  alphaId : String
  type : String
  payload : RawSignal
  receivedAt : String
  processed : Bool
  error : Option PyError

/-- The contents of the database. -/
structure Tables where
  alphas : Table AlphaRow.alphaId
  positions : Table PositionRow.positionId
  trades : Table TradeRow.tradeId
  alphaColumns : Table fun r : AlphaColumnRow => (r.alphaId, r.columnKey)
  signals : List SignalRow
  virtualPositions : Table VirtualPositionRow.positionId
  virtualTrades : Table TradeRow.tradeId
  virtualTradeEvents : Table VirtualTradeEventRow.eventId

/-- A freshly created database. -/
def Tables.empty : Tables where
  alphas := .empty
  positions := .empty
  trades := .empty
  alphaColumns := .empty
  signals := []
  virtualPositions := .empty
  virtualTrades := .empty
  virtualTradeEvents := .empty

/-- A new row into a table with a primary key. -/
def insertUnique {ρ κ : Type} [DecidableEq κ] {key : ρ → κ} (column : String) (t : Table key)
    (r : ρ) : Except PyError (Table key) :=
  match t.insert? r with
  | some t' => .ok t'
  | none => .error (.uniqueFailed column)

section insertUnique

variable {ρ κ : Type} [DecidableEq κ] {key : ρ → κ} {column : String} {t u : Table key} {r : ρ}

theorem insertUnique_eq_ok :
    insertUnique column t r = .ok u ↔ t.contains (key r) = false ∧ u.rows = t.rows ++ [r] := by
  rw [← t.insert?_some_iff, insertUnique]
  cases t.insert? r <;> simp

theorem insertUnique_of_contains (h : t.contains (key r) = true) :
    insertUnique column t r = .error (.uniqueFailed column) := by
  rw [insertUnique, t.insert?_of_contains h]

variable (column t r) in
theorem exists_insertUnique (h : t.contains (key r) = false) :
    ∃ u, insertUnique column t r = .ok u ∧ u.rows = t.rows ++ [r] := by
  cases hi : t.insert? r with
  | none =>
    rw [t.insert?_eq_none_iff, h] at hi
    cases hi
  | some u => exact ⟨u, by rw [insertUnique, hi], ((t.insert?_some_iff u r).mp hi).2⟩

end insertUnique

end PaperTrade.Worker
