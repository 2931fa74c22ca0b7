import PaperTrade.Worker.Connection
import PaperTrade.Worker.Duration
import PaperTrade.Worker.Metadata

/-!
# The methods of `Database`

Every method is a coroutine over the shared connection, with an await wherever the source has one.
What a method computes between two awaits is a function of its own: `closingTrade` is the trade
row of `close_position`, `columnValues` what is read out of one entry of a column list.
-/

namespace PaperTrade.Worker

open PaperTrade.Runtime

/-! ## Alphas and signals -/

/-- `Database.register_alpha`. -/
def registerAlpha (now alphaId : String) : Db Unit := do
  execute fun t =>
    .ok { t with alphas := t.alphas.insertOrIgnore ⟨alphaId, alphaId, now, "active"⟩ }
  commit

/-- `INSERT INTO signals`. -/
def Tables.log (t : Tables) (r : SignalRow) : Tables := { t with signals := t.signals ++ [r] }

/-- `Database.log_signal`. -/
def logSignal (now signalId alphaId type : String) (payload : RawSignal) : Db Unit := do
  execute fun t => .ok (t.log ⟨signalId, alphaId, type, payload, now, false, none⟩)
  commit

def markRow (signalId : String) (error : Option PyError) (r : SignalRow) : SignalRow :=
  if r.signalId = signalId then { r with processed := true, error := error } else r

/-- `UPDATE signals SET processed = 1, error = ? WHERE signal_id = ?`. -/
def Tables.mark (t : Tables) (signalId : String) (error : Option PyError) : Tables :=
  { t with signals := t.signals.map (markRow signalId error) }

/-- `Database.mark_signal_processed`. -/
def markSignalProcessed (signalId : String) (error : Option PyError) : Db Unit := do
  execute fun t => .ok (t.mark signalId error)
  commit

/-- Some row of `signals` with this id is marked. -/
def isProcessed (t : Tables) (signalId : String) : Bool :=
  t.signals.any fun r => r.signalId = signalId && r.processed

/-- `Database.signal_processed`. -/
def signalProcessed (signalId : String) : Db Bool := query fun t => isProcessed t signalId

/-! ## Positions -/

/-- `Database.create_position`. -/
def createPosition (row : PositionRow) : Db Unit := do
  execute fun t =>
    if fitsInt64 row.leverage then
      (insertUnique "positions.position_id" t.positions row).map fun p => { t with positions := p }
    else .error .intTooLarge
  commit

/-- `Database.get_position`. -/
def getPosition (positionId : String) : Db (Option PositionRow) :=
  query fun t => t.positions.find? positionId

/-- The row `get_open_position_by_alpha_symbol` finds. -/
def openPosition? (t : Tables) (alphaId symbol : String) : Option PositionRow :=
  t.positions.rows.find? fun r => r.alphaId = alphaId && r.symbol = symbol

/-- `Database.get_open_position_by_alpha_symbol`. -/
def getOpenPositionByAlphaSymbol (alphaId symbol : String) : Db (Option PositionRow) :=
  query fun t => openPosition? t alphaId symbol

/-- `UPDATE positions SET tp = ?, sl = ?, metadata = ?` with the columns that are given. -/
def PositionRow.updated (tp sl : Option PyFloat) (metadata : Option Text) (r : PositionRow) :
    PositionRow :=
  { r with
    tp := (tp.map real).getD r.tp
    sl := (sl.map real).getD r.sl
    metadata := metadata.getD r.metadata }

lemma PositionRow.positionId_updated (tp sl : Option PyFloat) (metadata : Option Text)
    (r : PositionRow) : (r.updated tp sl metadata).positionId = r.positionId := rfl

/-- `Database.modify_position`. -/
def modifyPosition (positionId : String) (tp sl : Option PyFloat) (metadata : Text) : Db Unit := do
  let merged ← if metadata.isBlankObject then pure none else do
    let pos ← getPosition positionId
    let current := (pos.map PositionRow.metadata).getD (.chars "")
    let m ← Coro.ofExcept (mergePositionRuntimeMetadata current metadata)
    pure (some m)
  if tp.isNone && sl.isNone && merged.isNone then pure ()
  else do
    execute fun t => .ok { t with
      positions := t.positions.modify positionId (·.updated tp sl merged)
        (PositionRow.positionId_updated tp sl merged) }
    commit

/-- `datetime.fromisoformat(s.replace("Z", "+00:00"))`. -/
def isoTime (s : String) : Except PyError DateTime :=
  match DateTime.parse s with
  | some d => .ok d
  | none => .error (.invalidIsoformat s)

/-- The direction `close_position` reads off the stored side. -/
def direction (side : String) : PyFloat := if side = "LONG" then .fin 1 else .fin (-1)

/-- `pos.get("exchange") or "binance"`. -/
def exchangeOr (exchange : String) : String := if exchange = "" then "binance" else exchange

/-- The trade row of `close_position`. -/
def closingTrade (pos : PositionRow) (exitPrice : Option PyFloat) (closeQty : PyFloat)
    (reason closedAt : String) (closeMetadata : Text) (tradeId : String) :
    Except PyError TradeRow := do
  let feePct := pos.feePct.getD 0
  let exchange := exchangeOr pos.exchange
  let exit ← need exitPrice
  let entry ← need pos.entryPrice
  let grossPnl := (exit - entry) * closeQty * direction pos.side
  let fee := (entry + exit) * closeQty * feePct
  let pnl := grossPnl - fee
  let capital := entry * closeQty
  let pnlPercent := if capital.truthy then pnl / capital * .fin 100 else .fin 0
  let opened ← isoTime pos.openedAt
  let closed ← isoTime closedAt
  let durationHours ← tradeDurationHours opened closed exchange
  pure {
    tradeId
    positionId := pos.positionId
    alphaId := pos.alphaId
    signalId := pos.signalId
    symbol := pos.symbol
    side := pos.side
    entryPrice := pos.entryPrice
    exitPrice := real exit
    qty := real closeQty
    pnl := real pnl
    pnlPercent := real pnlPercent
    leverage := pos.leverage
    tp := pos.tp
    sl := pos.sl
    reason
    durationHours := real durationHours
    openedAt := pos.openedAt
    closedAt
    metadata := mergeTradeMetadata pos.metadata closeMetadata
    fee := real fee
    exchange }

/-- The dust below which a position counts as closed. -/
def dust : PyFloat := .fin (1 / 1000000000000)

/-- `UPDATE positions SET qty = ?, metadata = ?`. -/
def PositionRow.reduced (qty : PyFloat) (metadata : Text) (r : PositionRow) : PositionRow :=
  { r with qty := real qty, metadata := metadata }

lemma PositionRow.positionId_reduced (qty : PyFloat) (metadata : Text) (r : PositionRow) :
    (r.reduced qty metadata).positionId = r.positionId := rfl

/-- The quantity `close_position` closes. -/
def closeQuantity (pos : PositionRow) (qty : Option PyFloat) : Except PyError PyFloat :=
  match qty with
  | none => need pos.qty
  | some q => (need pos.qty).map q.min

/-- `Database.close_position`; `uuid` is the trade id of a partial close. -/
def closePosition (uuid positionId : String) (exitPrice : Option PyFloat) (reason closedAt : String)
    (closeMetadata : Text) (qty : Option PyFloat) : Db Unit := do
  match ← getPosition positionId with
  | none => pure ()
  | some pos =>
    let closeQty ← Coro.ofExcept (closeQuantity pos qty)
    if closeQty ≤ 0 then pure ()
    else do
      let openQty ← Coro.ofExcept (need pos.qty)
      let remainingQty := (openQty - closeQty).max 0
      let fullyClosed := remainingQty ≤ dust
      let tradeId := if fullyClosed then pos.positionId else uuid
      let trade ← Coro.ofExcept
        (closingTrade pos exitPrice closeQty reason closedAt closeMetadata tradeId)
      execute fun t =>
        (insertUnique "trades.trade_id" t.trades trade).map fun r => { t with trades := r }
      if fullyClosed then
        execute fun t => .ok { t with positions := t.positions.erase positionId }
      else do
        let merged ← Coro.ofExcept (mergePositionRuntimeMetadata pos.metadata closeMetadata)
        execute fun t => .ok { t with
          positions := t.positions.modify positionId (·.reduced remainingQty merged)
            (PositionRow.positionId_reduced remainingQty merged) }
      commit

/-- `Database.get_positions_with_tpsl`. -/
def getPositionsWithTpsl : Db (List PositionRow) :=
  query fun t => t.positions.rows.filter fun r => r.tp.isSome || r.sl.isSome

/-! ## Column definitions -/

/-- A decoded value as a statement parameter. -/
def bindParameter : Json → Except PyError SqlValue
  | .null => .ok .null
  | .bool b => .ok (.integer (if b then 1 else 0))
  | .int i => if fitsInt64 i then .ok (.integer i) else .error .intTooLarge
  | .float .nan => .ok .null
  | .float x => .ok (.real x)
  | .str s => .ok (.text s)
  | _ => .error .unsupportedParameter

/-- A real number as SQLite writes it into a `TEXT` column: fifteen significant digits. -/
def realText : PyFloat → String
  | .nan => ""
  | .inf negative => if negative then "-Inf" else "Inf"
  | .fin q =>
    if q = 0 then "0.0"
    else
      let n := q.num.natAbs
      let d := q.den
      let e : ℤ := if d ≤ n then Nat.log 10 (n / d) else -(Nat.clog 10 ((d + n - 1) / n) : ℤ)
      let shift := 14 - e
      let scaled := if 0 ≤ shift then (2 * n * 10 ^ shift.toNat + d) / (2 * d)
        else (2 * n + d * 10 ^ (-shift).toNat) / (2 * d * 10 ^ (-shift).toNat)
      let (m, e) := if scaled = 10 ^ 15 then (10 ^ 14, e + 1) else (scaled, e)
      let ds := ((Nat.repr m).toList.reverse.dropWhile (· = '0')).reverse
      let point := fun (a b : List Char) => a ++ '.' :: (if b = [] then ['0'] else b)
      let body :=
        if e < -4 ∨ 15 ≤ e then
          let digits := (Nat.repr e.natAbs).toList
          point (ds.take 1) (ds.drop 1) ++ ['e', if e < 0 then '-' else '+'] ++
            (if digits.length = 1 then '0' :: digits else digits)
        else if e < 0 then point ['0'] (List.replicate ((-e).toNat - 1) '0' ++ ds)
        else
          let k := e.toNat + 1
          point (ds.take k ++ List.replicate (k - ds.length) '0') (ds.drop k)
      String.ofList (if q < 0 then '-' :: body else body)

/-- A value stored in a `TEXT NOT NULL` column. -/
def textColumn (column : String) : SqlValue → Except PyError String
  | .null => .error (.notNullFailed column)
  | .integer i => .ok (toString i)
  | .real x => .ok (realText x)
  | .text s => .ok s

/-- A value stored in an `INTEGER` column. -/
def integerColumn : SqlValue → SqlValue
  | .real (.fin q) => if q.den = 1 ∧ fitsInt64 q.num then .integer q.num else .real (.fin q)
  | .text s =>
    match (let (negative, body) := sign (strip s.toList)
      (decimal? body).map fun q => if negative then -q else q) with
    | some q => if q.den = 1 ∧ fitsInt64 q.num then .integer q.num else .real (.fin q)
    | none => .text s
  | v => v

/-- The values the loop of `register_alpha_columns` reads out of one entry. -/
structure ColumnValues where
  key : Json
  label : Json
  type : Json
  decimals : Json

/-- `col["key"]`, `col.get("label", col["key"])`, `col.get("type", "text")`,
`col.get("decimals", 0)`. -/
def columnValues : Json → Except PyError ColumnValues
  | .obj d =>
    match Entries.get? d "key" with
    | none => .error (.keyError "key")
    | some key => .ok {
        key
        label := (Entries.get? d "label").getD key
        type := (Entries.get? d "type").getD (.str "text")
        decimals := (Entries.get? d "decimals").getD (.int 0) }
  | _ => .error .typeError

/-- The row of these values: the parameters are bound first, then the `NOT NULL` constraints
apply. -/
def columnRow (alphaId : String) (i : ℕ) (v : ColumnValues) : Except PyError AlphaColumnRow := do
  let key ← bindParameter v.key
  let label ← bindParameter v.label
  let type ← bindParameter v.type
  let decimals ← bindParameter v.decimals
  let columnKey ← textColumn "alpha_columns.column_key" key
  let label ← textColumn "alpha_columns.label" label
  let type ← textColumn "alpha_columns.type" type
  pure ⟨alphaId, columnKey, label, type, integerColumn decimals, i⟩

/-- `INSERT INTO alpha_columns`. -/
def insertColumn (alphaId : String) (i : ℕ) (v : ColumnValues) (t : Tables) :
    Except PyError Tables := do
  let row ← columnRow alphaId i v
  let c ← insertUnique "alpha_columns.alpha_id, alpha_columns.column_key" t.alphaColumns row
  pure { t with alphaColumns := c }

/-- The loop of `register_alpha_columns`. -/
def insertColumns (alphaId : String) : ℕ → List Json → Db Unit
  | _, [] => pure ()
  | i, col :: rest => do
    let v ← Coro.ofExcept (columnValues col)
    execute (insertColumn alphaId i v)
    insertColumns alphaId (i + 1) rest

/-- `Database.register_alpha_columns`. -/
def registerAlphaColumns (alphaId : String) (columns : List Json) : Db Unit := do
  execute fun t => .ok { t with alphaColumns := t.alphaColumns.filter fun r => r.alphaId ≠ alphaId }
  insertColumns alphaId 0 columns
  commit

end PaperTrade.Worker
