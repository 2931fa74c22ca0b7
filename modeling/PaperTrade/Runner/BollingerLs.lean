import PaperTrade.Runtime.Isoformat
import PaperTrade.Runner.SuploXau

/-!
# `BollingerMeanRevLsRunnerStrategy`

A strategy that is long below the lower Bollinger band and short above the mean: on each new candle the
z-score of the last closed one gives a zone, and the position follows the zone at the open of the new
candle. With `reverse` every side is swapped.

`math.sqrt` is a parameter, and so is the name-based UUID of a position. What only saves the positions,
and the price alerts, are left out: no run reads them back.
-/

namespace PaperTrade.Runner

open PaperTrade.Runtime

/-- The side of a position. -/
inductive Side
  | long
  | short
deriving DecidableEq

namespace Side

/-- The side as the signals spell it. -/
def name : Side → String
  | long => "LONG"
  | short => "SHORT"

def swap : Side → Side
  | long => short
  | short => long

@[simp] lemma swap_swap (s : Side) : s.swap.swap = s := by
  cases s <;> rfl

end Side

/-- A zone of the z-score: `BUY`, `SELL` or `BETWEEN`. -/
inductive Zone
  | buy
  | sell
  | between
deriving DecidableEq

/-- `_TF_MS`. -/
def tfMsTable : List (String × ℤ) :=
  [("1m", 60000), ("3m", 180000), ("5m", 300000), ("15m", 900000), ("30m", 1800000), ("1h", 3600000),
    ("2h", 7200000), ("4h", 14400000), ("1d", 86400000)]

/-- `l[-n:]`. -/
def lastValues {α : Type} (l : List α) (n : ℕ) : List α := if n = 0 then l else l.drop (l.length - n)

/-- `statistics.fmean`: infinities of both signs raise. -/
def fmean (values : List PyFloat) : Except StrategyError PyFloat :=
  if .inf true ∈ values ∧ .inf false ∈ values then .error .badArgument
  else .ok (values.foldl (· + ·) 0 / .fin values.length)

/-- `_zscore`. -/
def zscore (sqrt : PyFloat → PyFloat) (closes : List PyFloat) (period : ℕ) :
    Except StrategyError (Option PyFloat) :=
  if closes.length < period ∨ period < 2 then .ok none
  else
    let window := lastValues closes period
    let last := window.getLast?.getD 0
    match fmean window with
    | .error e => .error e
    | .ok mean =>
      let squares := (window.map fun v => (v - mean) * (v - mean)).foldl (· + ·) 0
      let std := sqrt (squares / .fin (window.length - 1))
      if std = 0 then .ok (some 0) else .ok (some ((last - mean) / std))

/-- `_zone_from_closes`. -/
def zoneFromCloses (sqrt : PyFloat → PyFloat) (closes : List PyFloat) (period : ℕ) :
    Except StrategyError (Option Zone) :=
  if closes.length < period then .ok none
  else match zscore sqrt closes period with
    | .error e => .error e
    | .ok none => .ok none
    | .ok (some z) => .ok (some (if z < -2 then .buy else if 0 < z then .sell else .between))

/-- The day of an instant in milliseconds since the epoch, counted from 0001-01-01. -/
def dayOf (ms : ℤ) : ℤ := ms / 86400000 + 719162

/-- `_bar_year`. -/
def barYear (openMs : ℤ) : Except StrategyError ℕ :=
  if 0 ≤ dayOf openMs ∧ dayOf openMs < 3652059 then .ok (DateTime.yearOf (dayOf openMs).toNat)
  else .error .outOfRange

/-- The parameters of the strategy. -/
structure BollingerLs where
  alphaId : String
  version : String
  tf : String := "1d"
  tfMs : ℤ := 86400000
  known : (tf, tfMs) ∈ tfMsTable := by decide
  reverse : Bool := false
  bbPeriod : ℕ := 20
  two_le : 2 ≤ bbPeriod := by decide
  zEntryBuy : PyFloat := -2
  zEntrySell : PyFloat := 0
  symbol : String := "PAXGUSDT"
  exchange : String := "binance"
  capital : PyFloat := 10000
  leverage : PyFloat := 10
  positionFraction : PyFloat := 1
  feePct : PyFloat := .fin (35 / 100000)
  startYear : ℤ := 2024
  minTfBars : ℤ := bbPeriod + 4
  /-- `timestamp_semantics` is `close`. -/
  closeTimes : Bool := false

/-- An entry of `_positions`. -/
structure LsPosition where
  positionId : String
  side : Side
  entry : PyFloat
  qty : PyFloat
  entryCandleOpenMs : ℤ

/-- What the strategy keeps between two scans. -/
structure LsState where
  lastBarOpen : Option ℤ := none
  pendingBarOpen : Option ℤ := none
  positions : Table LsPosition.positionId := .empty

namespace BollingerLs

variable (x : BollingerLs)

/-- `_bar_open_ms`. -/
def barOpenMs (value : ℤ) : ℤ :=
  let valueMs := SuploXau.timestampMs value
  if x.closeTimes then (if valueMs % 1000 = 999 then valueMs + 1 else valueMs) - x.tfMs else valueMs

/-- `should_scan_after_event` for a kline of the symbol and timeframe of the strategy; `latest` is
what the cache has. -/
def shouldScanAfterEvent (ready : Bool) (latest : Option ℤ) (s : LsState) : LsState :=
  match ready, latest with
  | true, some latest =>
    let openMs := x.barOpenMs latest
    if s.lastBarOpen.any fun last => openMs ≤ last then s
    else { s with pendingBarOpen := some openMs }
  | _, _ => s

/-- `_series`, of the candles that the snapshot holds. -/
def series (snapshot : List Candle) : List Candle :=
  snapshot.map fun c => { c with time := x.barOpenMs c.time }

/-- `_existing_position`. -/
def existingPosition (s : LsState) : Option LsPosition := s.positions.rows.head?

/-- The name of a position's UUID. -/
def positionName (side : Side) (candleOpenMs : ℤ) : String :=
  x.alphaId ++ "|" ++ x.version ++ "|boll_ls|" ++ toString candleOpenMs ++ "|" ++ side.name

/-- The quantity of `_open_position`. -/
def positionQty (entry : PyFloat) : Except StrategyError PyFloat :=
  if entry.truthy = false then .error .zeroDivision
  else match x.capital * x.positionFraction * x.leverage / entry * 1000 with
    | .fin q => .ok (.fin (⌊q⌋ / 1000))
    | _ => .error .notFinite

/-- A call of `emit_signal`. -/
def call (type : String) (fields : Entries) : Call := ⟨⟨x.alphaId, x.version⟩, type, fields⟩

/-- The position dict as JSON, its keys sorted. -/
def runtimeJson (p : LsPosition) : Json := .obj
  [("alpha_id", .str x.alphaId), ("bb_period", .int x.bbPeriod), ("entry", .float p.entry),
   ("entry_candle_open_ms", .int p.entryCandleOpenMs), ("position_id", .str p.positionId),
   ("qty", .float p.qty), ("side", .str p.side.name), ("sl", .null), ("symbol", .str x.symbol),
   ("tp", .null), ("version", .str x.version), ("z_entry_buy", .float x.zEntryBuy),
   ("z_entry_sell", .float x.zEntrySell)]

/-- The OPEN of `_open_position`. -/
def openCall (p : LsPosition) : Call := x.call "OPEN"
  [("position_id", .str p.positionId), ("symbol", .str x.symbol), ("side", .str p.side.name),
   ("entry", .float p.entry), ("qty", .float p.qty), ("tp", .null), ("sl", .null),
   ("leverage", .float x.leverage), ("exchange", .str x.exchange), ("fee_pct", .float x.feePct),
   ("tf", .str x.tf), ("signal_candle_open_ms", .int p.entryCandleOpenMs),
   ("metadata", dumps (.obj
     [("allow_duplicate_position", .bool false), ("bb_period", .int x.bbPeriod),
      ("strategy_runtime", x.runtimeJson p), ("strategy_type", .str "bollinger_meanrev_ls"),
      ("z_entry_buy", .float x.zEntryBuy), ("z_entry_sell", .float x.zEntrySell)]))]

/-- The CLOSE of `_close_position`. -/
def closeCall (positionId reason : String) (exitPrice : PyFloat) (candleOpenMs : ℤ) : Call :=
  x.call "CLOSE"
    [("position_id", .str positionId), ("symbol", .str x.symbol), ("reason", .str reason),
     ("exit_price", .float exitPrice),
     ("metadata", dumps (.obj
       [("ref_is_executable", .bool true), ("signal_candle_open_ms", .int candleOpenMs),
        ("source", .str "bollinger_meanrev_ls")]))]

/-- `long_side` of `_scan_tf`. -/
def longSide : Side := if x.reverse then .short else .long

/-- `short_side` of `_scan_tf`. -/
def shortSide : Side := if x.reverse then .long else .short

variable (digest : Logical → String) (uuid5 : String → String) (sqrt : PyFloat → PyFloat)
  (env : ℕ → DispatchEnv)

/-- The position that `_open_position` stores. -/
def newPosition (side : Side) (entry qty : PyFloat) (candleOpenMs : ℤ) : LsPosition :=
  ⟨uuid5 (x.positionName side candleOpenMs), side, entry, qty, candleOpenMs⟩

/-- `_close_position`. -/
def closePosition (p : LsPosition) (reason : String) (exitPrice : PyFloat) (candleOpenMs : ℤ) :
    Method LsState Unit := do
  emitSignal digest env (x.closeCall p.positionId reason exitPrice candleOpenMs)
  modifyState fun s => { s with positions := s.positions.erase p.positionId }

/-- `_open_position`. No position is open when it stores one. -/
def openPosition (side : Side) (entry : PyFloat) (candleOpenMs : ℤ) : Method LsState Unit := do
  let s ← getState
  if (existingPosition s).isSome then pure ()
  else do
    let qty ← Coro.ofExcept (x.positionQty entry)
    if qty < .fin (1 / 1000) then pure ()
    else do
      let position := x.newPosition uuid5 side entry qty candleOpenMs
      emitSignal digest env (x.openCall position)
      modifyState fun s => { s with positions := s.positions.insertOrIgnore position }

/-- `_scan_tf` from the table of positions and zones on. -/
def followZone (zone : Zone) (price : PyFloat) (candleOpenMs : ℤ) : Method LsState Unit := do
  let s ← getState
  match existingPosition s, zone with
  | none, .buy => x.openPosition digest uuid5 env x.longSide price candleOpenMs
  | none, .sell => x.openPosition digest uuid5 env x.shortSide price candleOpenMs
  | none, .between => pure ()
  | some p, zone =>
    if p.side = x.longSide then
      if zone = .sell then do
        x.closePosition digest env p "FLIP" price candleOpenMs
        x.openPosition digest uuid5 env x.shortSide price candleOpenMs
      else pure ()
    else
      match zone with
      | .buy => do
        x.closePosition digest env p "FLIP" price candleOpenMs
        x.openPosition digest uuid5 env x.longSide price candleOpenMs
      | .between => x.closePosition digest env p "CASH" price candleOpenMs
      | .sell => pure ()

/-- `_scan_tf` on a new candle, of which the zone is known. -/
def scanZone (zone : Zone) (c : Candle) : Method LsState Unit := do
  let s ← getState
  modifyState fun s => { s with lastBarOpen := some c.time }
  if s.lastBarOpen = none then pure ()
  else do
    let year ← Coro.ofExcept (barYear c.time)
    if (year : ℤ) < x.startYear then
      match existingPosition s with
      | some p => x.closePosition digest env p "OOR" c.opening c.time
      | none => pure ()
    else x.followZone digest uuid5 env zone c.opening c.time

/-- `_scan_tf`. -/
def scanTf (snapshot : List Candle) (candleOpenMs : ℤ) : Method LsState Unit :=
  match (x.series snapshot).getLast? with
  | none => pure ()
  | some c =>
    if ((x.series snapshot).length : ℤ) < x.minTfBars + 1 ∨ c.time ≠ candleOpenMs then pure ()
    else do
      let zone ← Coro.ofExcept
        (zoneFromCloses sqrt ((x.series snapshot).dropLast.map Candle.close) x.bbPeriod)
      match zone with
      | none => pure ()
      | some zone => x.scanZone digest uuid5 env zone c

/-- `scan`. -/
def scan (snapshot : List Candle) : Method LsState Unit := do
  let s ← getState
  match s.pendingBarOpen with
  | none => pure ()
  | some candleOpenMs => do
    x.scanTf digest uuid5 sqrt env snapshot candleOpenMs
    modifyState fun s => { s with pendingBarOpen := none }

/-- A kline event, or a scan with what the snapshot holds. -/
inductive Event
  | kline (ready : Bool) (latest : Option ℤ)
  | scan (snapshot : List Candle)

/-- One event; an exception leaves the state as it is at that point. -/
def step (w : LsState × Outbox) : Event → LsState × Outbox
  | .kline ready latest => (x.shouldScanAfterEvent ready latest w.1, w.2)
  | .scan snapshot => ((x.scan digest uuid5 sqrt env snapshot).run w).2

/-- A run of the strategy. -/
def run (w : LsState × Outbox) (events : List Event) : LsState × Outbox :=
  events.foldl (x.step digest uuid5 sqrt env) w

end BollingerLs

end PaperTrade.Runner
