import PaperTrade.Worker.Behaviour

/-!
# The virtual ledger

`Database.apply_virtual_trade_event`: an event whose id is known is skipped, a `VIRTUAL_OPEN` adds a
row to `virtual_positions`, a `VIRTUAL_CLOSE` books a row of `virtual_trades` and deletes the
position, and the id is recorded. All of it is one transaction, so an event that raises leaves the
tables as they are. The consumer of the virtual stream has a connection of its own.

`ApplyVirtual` lists what an event can do. The order of the keys in the recorded payload is not kept.
-/

namespace PaperTrade.Worker

open PaperTrade.Runtime

/-- `float(v)`. -/
def jsonFloat : Json → Except PyError PyFloat
  | .bool b => .ok (if b then 1 else 0)
  | .int i => .ok (.fin i)
  | .float x => .ok x
  | .str s => toFloat (.chars s)
  | _ => .error .typeError

/-- `event[key]`. -/
def item (event : Entries) (key : String) : Except PyError Json := required key (event.get? key)

/-- `str(v)` as an identifier. -/
def strOf (v : Json) : String := (pyStr v).spell

/-- `str(event[key])`. -/
def strItem (event : Entries) (key : String) : Except PyError String := (item event key).map strOf

/-- `str(event.get(key, default))`. -/
def strItemOr (event : Entries) (key default : String) : String :=
  ((event.get? key).map strOf).getD default

/-- `float(event[key])`. -/
def floatItem (event : Entries) (key : String) : Except PyError PyFloat := do
  jsonFloat (← item event key)

/-- The row of a `VIRTUAL_OPEN`. -/
def virtualRow (event : Entries) (alphaId eventId : String) : Except PyError VirtualPositionRow := do
  let metadata := (event.get? "metadata").getD .null
  let positionId ← strItem event "position_id"
  let symbol ← strItem event "symbol"
  let side ← strItem event "side"
  let price ← floatItem event "price"
  let qty ← floatItem event "qty"
  let timestamp ← strItem event "timestamp"
  pure {
    positionId, alphaId, symbol, side
    signalId := eventId
    entryPrice := real price
    qty := real qty
    leverage := 1
    openedAt := timestamp
    metadata := .json (if metadata.truthy then metadata else .obj [])
    exchange := strItemOr event "exchange" "binance" }

/-- The `close` metadata of a `VIRTUAL_CLOSE`. -/
def virtualCloseMetadata (event : Entries) : Text := .json (.obj
  [("virtual", .bool true), ("ledger_source", .str "shadow_sleeve"),
   ("candle_open_ms", (event.get? "candle_open_ms").getD .null)])

/-- The PnL of a `VIRTUAL_CLOSE` and its trade. -/
def virtualTrade (event : Entries) (alphaId eventId : String) (position : VirtualPositionRow) :
    Except PyError (PyFloat × TradeRow) := do
  let exit ← floatItem event "price"
  let qty ← need position.qty
  let entry ← need position.entryPrice
  let pnl := (exit - entry) * qty * direction position.side
  let capital := entry * qty
  let pnlPercent := if capital.truthy then pnl / capital * .fin 100 else .fin 0
  let opened ← isoTime position.openedAt
  let closedAt ← strItem event "timestamp"
  let closed ← isoTime closedAt
  let exchange := exchangeOr position.exchange
  let durationHours ← tradeDurationHours opened closed exchange
  pure (pnl, {
    tradeId := position.positionId
    positionId := position.positionId
    alphaId
    signalId := eventId
    symbol := position.symbol
    side := position.side
    entryPrice := real entry
    exitPrice := real exit
    qty := real qty
    pnl := real pnl
    pnlPercent := real pnlPercent
    leverage := 1
    tp := none
    sl := none
    reason := strItemOr event "reason" "VIRTUAL_REBALANCE"
    durationHours := real durationHours
    openedAt := position.openedAt
    closedAt
    metadata := mergeTradeMetadata position.metadata (virtualCloseMetadata event)
    fee := some 0
    exchange })

/-- What `apply_virtual_trade_event` returns. -/
inductive VirtualResult
  | opened (positionId : Json)
  | closed (positionId : String) (pnl : PyFloat)

/-- The branch of a `VIRTUAL_OPEN`. -/
def openVirtual (event : Entries) (alphaId eventId : String) : Db VirtualResult := do
  let row ← Coro.ofExcept (virtualRow event alphaId eventId)
  execute fun t => .ok { t with virtualPositions := t.virtualPositions.insertOrIgnore row }
  let positionId ← Coro.ofExcept (item event "position_id")
  pure (.opened positionId)

/-- The branch of a `VIRTUAL_CLOSE`. -/
def closeVirtual (event : Entries) (alphaId eventId : String) : Db VirtualResult := do
  let positionId ← Coro.ofExcept (strItem event "position_id")
  match ← query fun t => t.virtualPositions.find? positionId with
  | none => throw (PyError.virtualPositionNotFound positionId)
  | some position =>
    let (pnl, trade) ← Coro.ofExcept (virtualTrade event alphaId eventId position)
    execute fun t => (insertUnique "virtual_trades.trade_id" t.virtualTrades trade).map fun r =>
      { t with virtualTrades := r }
    execute fun t => .ok { t with virtualPositions := t.virtualPositions.erase position.positionId }
    pure (.closed position.positionId pnl)

/-- The branch that the type selects. -/
def dispatchVirtual (event : Entries) (eventType alphaId eventId : String) : Db VirtualResult :=
  if eventType = "VIRTUAL_OPEN" then openVirtual event alphaId eventId
  else if eventType = "VIRTUAL_CLOSE" then closeVirtual event alphaId eventId
  else throw (PyError.unsupportedVirtualEvent eventType)

/-- The transaction of `apply_virtual_trade_event`. -/
def recordVirtual (now : String) (event : Entries) (eventId eventType alphaId : String) :
    Db (Option VirtualResult) := do
  if ← query fun t => t.virtualTradeEvents.contains eventId then pure none
  else do
    let result ← dispatchVirtual event eventType alphaId eventId
    execute fun t => (insertUnique "virtual_trade_events.event_id" t.virtualTradeEvents
      ⟨eventId, alphaId, eventType, .json (.obj event), now⟩).map fun r =>
        { t with virtualTradeEvents := r }
    pure (some result)

/-- `Database.apply_virtual_trade_event`; `now` is the clock. -/
def applyVirtualTradeEvent (now : String) (event : Entries) : Db (Option VirtualResult) := do
  let eventId ← Coro.ofExcept (strItem event "event_id")
  let eventType ← Coro.ofExcept (strItem event "type")
  let alphaId ← Coro.ofExcept (strItem event "alpha_id")
  transaction (recordVirtual now event eventId eventType alphaId)

/-! ## What an event does -/

/-- The ids of an event. -/
structure EventIds (event : Entries) (eventId eventType alphaId : String) : Prop where
  eventId : strItem event "event_id" = .ok eventId
  type : strItem event "type" = .ok eventType
  alphaId : strItem event "alpha_id" = .ok alphaId

/-- The event is recorded. -/
def Records (now : String) (event : Entries) (eventId eventType alphaId : String)
    (s : Tables) (events : Table VirtualTradeEventRow.eventId) : Prop :=
  s.virtualTradeEvents.contains eventId = false ∧ events.rows = s.virtualTradeEvents.rows ++
    [⟨eventId, alphaId, eventType, .json (.obj event), now⟩]

/-- What an event does. -/
inductive ApplyVirtual (now : String) (event : Entries) (s : Tables) :
    Except PyError (Option VirtualResult) → Tables → Prop
  | unread {e} (hids : ∀ eventId eventType alphaId, ¬ EventIds event eventId eventType alphaId) :
      ApplyVirtual now event s (.error e) s
  | duplicate {eventId eventType alphaId} (hids : EventIds event eventId eventType alphaId)
      (hknown : s.virtualTradeEvents.contains eventId = true) : ApplyVirtual now event s (.ok none) s
  | unsupported {eventId eventType alphaId} (hids : EventIds event eventId eventType alphaId)
      (hnew : s.virtualTradeEvents.contains eventId = false) (hopen : eventType ≠ "VIRTUAL_OPEN")
      (hclose : eventType ≠ "VIRTUAL_CLOSE") :
      ApplyVirtual now event s (.error (.unsupportedVirtualEvent eventType)) s
  | refused {eventId alphaId e} (hids : EventIds event eventId "VIRTUAL_OPEN" alphaId)
      (hnew : s.virtualTradeEvents.contains eventId = false)
      (hrow : virtualRow event alphaId eventId = .error e) : ApplyVirtual now event s (.error e) s
  | opened {eventId alphaId row v events} (hids : EventIds event eventId "VIRTUAL_OPEN" alphaId)
      (hrow : virtualRow event alphaId eventId = .ok row)
      (hrecords : Records now event eventId "VIRTUAL_OPEN" alphaId s events) :
      ApplyVirtual now event s (.ok (some (.opened v)))
        { s with
          virtualPositions := s.virtualPositions.insertOrIgnore row
          virtualTradeEvents := events }
  | unnamed {eventId alphaId e} (hids : EventIds event eventId "VIRTUAL_CLOSE" alphaId)
      (hnew : s.virtualTradeEvents.contains eventId = false)
      (hposition : strItem event "position_id" = .error e) : ApplyVirtual now event s (.error e) s
  | missing {eventId alphaId positionId} (hids : EventIds event eventId "VIRTUAL_CLOSE" alphaId)
      (hnew : s.virtualTradeEvents.contains eventId = false)
      (hposition : strItem event "position_id" = .ok positionId)
      (hfind : s.virtualPositions.find? positionId = none) :
      ApplyVirtual now event s (.error (.virtualPositionNotFound positionId)) s
  | unbooked {eventId alphaId positionId position e}
      (hids : EventIds event eventId "VIRTUAL_CLOSE" alphaId)
      (hnew : s.virtualTradeEvents.contains eventId = false)
      (hposition : strItem event "position_id" = .ok positionId)
      (hfind : s.virtualPositions.find? positionId = some position)
      (htrade : virtualTrade event alphaId eventId position = .error e) :
      ApplyVirtual now event s (.error e) s
  | taken {eventId alphaId positionId position pnl trade}
      (hids : EventIds event eventId "VIRTUAL_CLOSE" alphaId)
      (hnew : s.virtualTradeEvents.contains eventId = false)
      (hposition : strItem event "position_id" = .ok positionId)
      (hfind : s.virtualPositions.find? positionId = some position)
      (htrade : virtualTrade event alphaId eventId position = .ok (pnl, trade))
      (htaken : s.virtualTrades.contains trade.tradeId = true) :
      ApplyVirtual now event s (.error (.uniqueFailed "virtual_trades.trade_id")) s
  | closed {eventId alphaId positionId position pnl trade trades events}
      (hids : EventIds event eventId "VIRTUAL_CLOSE" alphaId)
      (hposition : strItem event "position_id" = .ok positionId)
      (hfind : s.virtualPositions.find? positionId = some position)
      (htrade : virtualTrade event alphaId eventId position = .ok (pnl, trade))
      (hfree : s.virtualTrades.contains trade.tradeId = false)
      (htrades : trades.rows = s.virtualTrades.rows ++ [trade])
      (hrecords : Records now event eventId "VIRTUAL_CLOSE" alphaId s events) :
      ApplyVirtual now event s (.ok (some (.closed position.positionId pnl)))
        { s with
          virtualPositions := s.virtualPositions.erase position.positionId
          virtualTrades := trades
          virtualTradeEvents := events }

lemma exists_records (now : String) (event : Entries) (eventType alphaId : String) {eventId : String}
    {s : Tables} (hnew : s.virtualTradeEvents.contains eventId = false) :
    ∃ events, insertUnique "virtual_trade_events.event_id" s.virtualTradeEvents
        ⟨eventId, alphaId, eventType, .json (.obj event), now⟩ = .ok events ∧
      Records now event eventId eventType alphaId s events := by
  obtain ⟨events, hinsert, hrows⟩ := exists_insertUnique
    "virtual_trade_events.event_id" s.virtualTradeEvents
    ⟨eventId, alphaId, eventType, .json (.obj event), now⟩ hnew
  exact ⟨events, hinsert, hnew, hrows⟩

lemma item_of_virtualRow {event : Entries} {alphaId eventId : String} {row : VirtualPositionRow}
    (h : virtualRow event alphaId eventId = .ok row) :
    ∃ v, item event "position_id" = .ok v ∧ row.positionId = strOf v ∧ row.alphaId = alphaId := by
  simp only [virtualRow] at h
  obtain ⟨positionId, hid, h⟩ := bind_eq_ok h
  obtain ⟨_, -, h⟩ := bind_eq_ok h
  obtain ⟨_, -, h⟩ := bind_eq_ok h
  obtain ⟨_, -, h⟩ := bind_eq_ok h
  obtain ⟨_, -, h⟩ := bind_eq_ok h
  obtain ⟨_, -, h⟩ := bind_eq_ok h
  cases h
  cases hitem : item event "position_id" with
  | error e =>
    rw [strItem, hitem] at hid
    cases hid
  | ok v =>
    rw [strItem, hitem] at hid
    cases hid
    exact ⟨v, rfl, rfl, rfl⟩

lemma virtualTrade_ids {event : Entries} {alphaId eventId : String} {position : VirtualPositionRow}
    {pnl : PyFloat} {trade : TradeRow}
    (h : virtualTrade event alphaId eventId position = .ok (pnl, trade)) :
    trade.tradeId = position.positionId ∧ trade.positionId = position.positionId := by
  simp only [virtualTrade] at h
  obtain ⟨_, -, h⟩ := bind_eq_ok h
  obtain ⟨_, -, h⟩ := bind_eq_ok h
  obtain ⟨_, -, h⟩ := bind_eq_ok h
  obtain ⟨_, -, h⟩ := bind_eq_ok h
  obtain ⟨_, -, h⟩ := bind_eq_ok h
  obtain ⟨_, -, h⟩ := bind_eq_ok h
  obtain ⟨_, -, h⟩ := bind_eq_ok h
  cases h
  exact ⟨rfl, rfl⟩

/-- The transaction of an event: what it does when it returns, and that it is listed when it raises. -/
lemma recordVirtual_run (now : String) (event : Entries) (c s : Tables)
    {eventId eventType alphaId : String} (hids : EventIds event eventId eventType alphaId) :
    ∃ r s', (recordVirtual now event eventId eventType alphaId).run (.within c s) =
        (r, .within c s') ∧
      ApplyVirtual now event s r (match r with
        | .ok _ => s'
        | .error _ => s) := by
  simp only [recordVirtual, Coro.run_bind, run_query, Conn.current_within]
  cases hnew : s.virtualTradeEvents.contains eventId with
  | true => exact ⟨_, _, rfl, .duplicate hids hnew⟩
  | false =>
  obtain ⟨events, hinsert, hrecords⟩ := exists_records now event eventType alphaId hnew
  simp only [Bool.false_eq_true, if_false, dispatchVirtual]
  by_cases hopen : eventType = "VIRTUAL_OPEN"
  · subst hopen
    simp only [if_true, openVirtual, Coro.run_bind, Coro.run_ofExcept]
    cases hrow : virtualRow event alphaId eventId with
    | error e => exact ⟨_, _, rfl, .refused hids hnew hrow⟩
    | ok row =>
    obtain ⟨v, hitem, -, -⟩ := item_of_virtualRow hrow
    simp only [run_execute, hitem, Coro.run_pure, Coro.run_bind, hinsert, Except.map]
    exact ⟨_, _, rfl, .opened hids hrow hrecords⟩
  by_cases hclose : eventType = "VIRTUAL_CLOSE"
  · subst hclose
    simp only [if_neg hopen, if_true, closeVirtual, Coro.run_bind, Coro.run_ofExcept]
    cases hposition : strItem event "position_id" with
    | error e => exact ⟨_, _, rfl, .unnamed hids hnew hposition⟩
    | ok positionId =>
    simp only [run_query, Conn.current_within]
    cases hfind : s.virtualPositions.find? positionId with
    | none => exact ⟨_, _, rfl, .missing hids hnew hposition hfind⟩
    | some position =>
    simp only [Coro.run_bind, Coro.run_ofExcept]
    cases htrade : virtualTrade event alphaId eventId position with
    | error e => exact ⟨_, _, rfl, .unbooked hids hnew hposition hfind htrade⟩
    | ok p =>
    obtain ⟨pnl, trade⟩ := p
    simp only [run_execute]
    cases hfree : s.virtualTrades.contains trade.tradeId with
    | true =>
      refine ⟨_, s, ?_, .taken hids hnew hposition hfind htrade hfree⟩
      simp only [insertUnique_of_contains hfree, Except.map]
    | false =>
      obtain ⟨trades, hins, htrades⟩ := exists_insertUnique
        "virtual_trades.trade_id" s.virtualTrades trade hfree
      simp only [hins, Except.map, Coro.run_bind, run_execute, Coro.run_pure, hinsert]
      exact ⟨_, _, rfl, .closed hids hposition hfind htrade hfree htrades hrecords⟩
  · simp only [if_neg hopen, if_neg hclose, Coro.run_throw]
    exact ⟨_, s, rfl, .unsupported hids hnew hopen hclose⟩

theorem applyVirtualTradeEvent_run (now : String) (event : Entries) (s : Tables) :
    ∃ r s', (applyVirtualTradeEvent now event).run (.idle s) = (r, .idle s') ∧
      ApplyVirtual now event s r s' := by
  simp only [applyVirtualTradeEvent, Coro.run_bind, Coro.run_ofExcept]
  cases hid : strItem event "event_id" with
  | error e =>
    refine ⟨_, s, rfl, .unread fun _ _ _ h => ?_⟩
    rw [h.eventId] at hid
    cases hid
  | ok eventId =>
  simp only [Coro.run_bind, Coro.run_ofExcept]
  cases htype : strItem event "type" with
  | error e =>
    refine ⟨_, s, rfl, .unread fun _ _ _ h => ?_⟩
    rw [h.type] at htype
    cases htype
  | ok eventType =>
  simp only [Coro.run_bind, Coro.run_ofExcept]
  cases halpha : strItem event "alpha_id" with
  | error e =>
    refine ⟨_, s, rfl, .unread fun _ _ _ h => ?_⟩
    rw [h.alphaId] at halpha
    cases halpha
  | ok alphaId =>
  obtain ⟨r, s', hrun, happly⟩ := recordVirtual_run now event s s ⟨hid, htype, halpha⟩
  cases r with
  | ok a => exact ⟨_, s', run_transaction_ok s hrun, happly⟩
  | error e => exact ⟨_, s, run_transaction_error s hrun, happly⟩

/-- The database after an event has been applied with nothing else going on. -/
def applyVirtual (now : String) (s : Tables) (event : Entries) : Tables :=
  ((applyVirtualTradeEvent now event).run (.idle s)).2.committed

/-- What `apply_virtual_trade_event` returns or raises. -/
def virtualReply (now : String) (s : Tables) (event : Entries) :
    Except PyError (Option VirtualResult) :=
  ((applyVirtualTradeEvent now event).run (.idle s)).1

theorem applyVirtual_cases (now : String) (event : Entries) (s : Tables) :
    ApplyVirtual now event s (virtualReply now s event) (applyVirtual now s event) := by
  obtain ⟨r, s', hrun, h⟩ := applyVirtualTradeEvent_run now event s
  rw [applyVirtual, virtualReply, hrun]
  exact h

/-! ## Events that are accepted -/

lemma EventIds.unique {event : Entries} {a a' b b' c c' : String} (h : EventIds event a b c)
    (h' : EventIds event a' b' c') : a' = a ∧ b' = b ∧ c' = c := by
  have ha := h'.eventId
  have hb := h'.type
  have hc := h'.alphaId
  rw [h.eventId] at ha
  rw [h.type] at hb
  rw [h.alphaId] at hc
  cases ha
  cases hb
  cases hc
  exact ⟨rfl, rfl, rfl⟩

section Accepted

variable {now : String} {event : Entries} {s s' : Tables} {eventId alphaId : String}
  {r : Except PyError (Option VirtualResult)}

/-- A `VIRTUAL_OPEN` with a new id whose row can be read is accepted. -/
lemma ApplyVirtual.accepts_open (h : ApplyVirtual now event s r s')
    (hids : EventIds event eventId "VIRTUAL_OPEN" alphaId)
    (hnew : s.virtualTradeEvents.contains eventId = false) {row : VirtualPositionRow}
    (hrow : virtualRow event alphaId eventId = .ok row) :
    ∃ v events, r = .ok (some v) ∧ Records now event eventId "VIRTUAL_OPEN" alphaId s events ∧
      s' = { s with
        virtualPositions := s.virtualPositions.insertOrIgnore row
        virtualTradeEvents := events } := by
  cases h with
  | unread hno => exact absurd hids (hno _ _ _)
  | duplicate hids' hknown =>
    obtain ⟨rfl, -, -⟩ := hids.unique hids'
    rw [hnew] at hknown
    cases hknown
  | unsupported hids' _ hopen _ =>
    obtain ⟨-, rfl, -⟩ := hids.unique hids'
    exact absurd rfl hopen
  | refused hids' _ hrow' =>
    obtain ⟨rfl, -, rfl⟩ := hids.unique hids'
    rw [hrow] at hrow'
    cases hrow'
  | opened hids' hrow' hrecords =>
    obtain ⟨rfl, -, rfl⟩ := hids.unique hids'
    rw [hrow] at hrow'
    cases hrow'
    exact ⟨_, _, rfl, hrecords, rfl⟩
  | unnamed hids' _ _ => exact absurd (hids.unique hids').2.1 (by decide)
  | missing hids' _ _ _ => exact absurd (hids.unique hids').2.1 (by decide)
  | unbooked hids' _ _ _ _ => exact absurd (hids.unique hids').2.1 (by decide)
  | taken hids' _ _ _ _ _ => exact absurd (hids.unique hids').2.1 (by decide)
  | closed hids' _ _ _ _ _ _ => exact absurd (hids.unique hids').2.1 (by decide)

/-- A `VIRTUAL_CLOSE` with a new id of an open position is accepted when its trade can be computed
and has a new id. -/
lemma ApplyVirtual.accepts_close (h : ApplyVirtual now event s r s')
    (hids : EventIds event eventId "VIRTUAL_CLOSE" alphaId)
    (hnew : s.virtualTradeEvents.contains eventId = false) {position : VirtualPositionRow}
    (hposition : strItem event "position_id" = .ok position.positionId)
    (hfind : s.virtualPositions.find? position.positionId = some position) {pnl : PyFloat}
    {trade : TradeRow} (htrade : virtualTrade event alphaId eventId position = .ok (pnl, trade))
    (hfree : s.virtualTrades.contains trade.tradeId = false) :
    ∃ v, ∃ trades : Table TradeRow.tradeId, ∃ events, r = .ok (some v) ∧
      trades.rows = s.virtualTrades.rows ++ [trade] ∧
      Records now event eventId "VIRTUAL_CLOSE" alphaId s events ∧
      s' = { s with
        virtualPositions := s.virtualPositions.erase position.positionId
        virtualTrades := trades
        virtualTradeEvents := events } := by
  -- the position that the event names is this one
  have hsame : ∀ {id p}, strItem event "position_id" = .ok id →
      s.virtualPositions.find? id = some p → p = position := by
    intro id p hid hp
    rw [hposition] at hid
    cases hid
    rw [hfind] at hp
    cases hp
    rfl
  cases h with
  | unread hno => exact absurd hids (hno _ _ _)
  | duplicate hids' hknown =>
    obtain ⟨rfl, -, -⟩ := hids.unique hids'
    rw [hnew] at hknown
    cases hknown
  | unsupported hids' _ _ hclose =>
    obtain ⟨-, rfl, -⟩ := hids.unique hids'
    exact absurd rfl hclose
  | refused hids' _ _ => exact absurd (hids.unique hids').2.1 (by decide)
  | opened hids' _ _ => exact absurd (hids.unique hids').2.1 (by decide)
  | unnamed _ _ hposition' =>
    rw [hposition] at hposition'
    cases hposition'
  | missing _ _ hposition' hfind' =>
    rw [hposition] at hposition'
    cases hposition'
    rw [hfind] at hfind'
    cases hfind'
  | unbooked hids' _ hposition' hfind' htrade' =>
    obtain ⟨rfl, -, rfl⟩ := hids.unique hids'
    obtain rfl := hsame hposition' hfind'
    rw [htrade] at htrade'
    cases htrade'
  | taken hids' _ hposition' hfind' htrade' htaken =>
    obtain ⟨rfl, -, rfl⟩ := hids.unique hids'
    obtain rfl := hsame hposition' hfind'
    rw [htrade] at htrade'
    cases htrade'
    rw [hfree] at htaken
    cases htaken
  | closed hids' hposition' hfind' htrade' _ htrades hrecords =>
    obtain ⟨rfl, -, rfl⟩ := hids.unique hids'
    obtain rfl := hsame hposition' hfind'
    rw [htrade] at htrade'
    cases htrade'
    exact ⟨_, _, _, rfl, htrades, hrecords, rfl⟩

/-- The trade of a position with numbers and aware times can be computed. -/
lemma virtualTrade_ok (alphaId eventId : String) {position : VirtualPositionRow} {exit qty entry : PyFloat} {closedAt : String}
    {opened closed : DateTime} (hprice : floatItem event "price" = .ok exit)
    (hqty : position.qty = some qty) (hentry : position.entryPrice = some entry)
    (hopened : DateTime.parse position.openedAt = some opened)
    (htime : strItem event "timestamp" = .ok closedAt)
    (hclosed : DateTime.parse closedAt = some closed) (hkind : closed.isAware = opened.isAware)
    (hend : isTcbs (exchangeOr position.exchange) = true → EndsInCalendar opened closed) :
    ∃ pnl trade, virtualTrade event alphaId eventId position = .ok (pnl, trade) := by
  obtain ⟨hours, hhours⟩ := tradeDurationHours_ok hkind hend
  simp only [virtualTrade, hprice, hqty, hentry, hopened, htime, hclosed, isoTime, need, hhours, bind,
    Except.bind, pure, Except.pure]
  exact ⟨_, _, rfl⟩

end Accepted

end PaperTrade.Worker
