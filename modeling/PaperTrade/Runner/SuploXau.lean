import PaperTrade.Runtime.Spelling
import PaperTrade.Runner.Strategy

/-!
# `SuploXauRunnerStrategy`

A Supertrend strategy on 15m candles with a trailing take-profit: on each new candle the trailing
level of the open position is managed, and then the state machine of the reference is stepped once
over the candle. `compute_supertrend_directions` and `step_state_machine` are pure functions of
the candles; the strategy keeps the positions it has opened, the last direction, and the candles it
has seen and is about to see.

The id of a position is a name-based UUID; `uuid5` is a parameter. `save_positions` and the price
alerts are left out: no run reads them back.
-/

namespace PaperTrade.Runner

open PaperTrade.Runtime

/-! ## The reference -/

structure Candle where
  opening : PyFloat
  high : PyFloat
  low : PyFloat
  close : PyFloat
  time : ℤ

/-- The true range of a candle after one that closed at `prev`. -/
def trueRange (prev : PyFloat) (c : Candle) : PyFloat :=
  ((c.high - c.low).max (c.high - prev).abs).max (c.low - prev).abs

/-- The loop of `_atr_rma`, after a candle that closed at `prev` with the average `atr`. -/
def atrLoop (alpha : PyFloat) : PyFloat → PyFloat → List Candle → List PyFloat
  | _, _, [] => []
  | prev, atr, c :: rest =>
    let atr := alpha * trueRange prev c + (1 - alpha) * atr
    atr :: atrLoop alpha c.close atr rest

/-- `_atr_rma`. -/
def atrRma (period : ℕ) : List Candle → List PyFloat
  | [] => []
  | c :: rest =>
    let atr := c.high - c.low
    atr :: atrLoop (1 / .fin period) c.close atr rest

/-- What one iteration of `compute_supertrend_directions` hands to the next. -/
structure Bands where
  close : PyFloat
  finalUb : PyFloat
  finalLb : PyFloat
  direction : ℤ

/-- `compute_supertrend_directions`: one iteration. -/
def Bands.next (factor : PyFloat) (prev : Bands) (c : Candle) (atr : PyFloat) : Bands :=
  let hl2 := (c.high + c.low) / 2
  let basicUb := hl2 + factor * atr
  let basicLb := hl2 - factor * atr
  let finalUb := if basicUb < prev.finalUb ∨ prev.finalUb < prev.close then basicUb else prev.finalUb
  let finalLb := if prev.finalLb < basicLb ∨ prev.close < prev.finalLb then basicLb else prev.finalLb
  let direction :=
    if prev.direction = 1 then (if finalUb < c.close then -1 else 1)
    else (if c.close < finalLb then 1 else -1)
  ⟨c.close, finalUb, finalLb, direction⟩

def directionLoop (factor : PyFloat) : Bands → List Candle → List PyFloat → List ℤ
  | prev, c :: candles, atr :: atrs =>
    let b := prev.next factor c atr
    b.direction :: directionLoop factor b candles atrs
  | _, _, _ => []

/-- `compute_supertrend_directions`. -/
def supertrendDirections (factor : PyFloat) (period : ℕ) (candles : List Candle) : List ℤ :=
  match candles, atrRma period candles with
  | c :: rest, atr :: atrs =>
    let hl2 := (c.high + c.low) / 2
    1 :: directionLoop factor ⟨c.close, hl2 + factor * atr, hl2 - factor * atr, 1⟩ rest atrs
  | _, _ => []

/-- `DOWNTREND` and `UPTREND`. -/
def downtrend : ℤ := 1
def uptrend : ℤ := -1

/-- `StateStep`. -/
structure StateStep where
  position : ℤ
  entryPrice : PyFloat
  peakGain : PyFloat
  targetExitPrice : Option PyFloat
  lastTrendDir : ℤ
  trailingExitHit : Bool
  flipExitHit : Bool
  flipOpen : Bool
  side : Option String

/-- `step_state_machine`: the trailing exit first, then the flip. -/
def stepStateMachine (currentPos : ℤ) (entryP peakP : PyFloat) (lastTrendDir : ℤ)
    (high low close : PyFloat) (direction : ℤ) (retracePct : PyFloat) : StateStep :=
  let currGain := if currentPos = 1 then high - entryP else entryP - low
  let peak := if currentPos ≠ 0 ∧ peakP < currGain then currGain else peakP
  let target : Option PyFloat :=
    if currentPos ≠ 0 ∧ 0 < peak then
      let allowedGain := peak * (1 - retracePct)
      some (if currentPos = 1 then entryP + allowedGain else entryP - allowedGain)
    else none
  let hitExit := target.any fun target =>
    if currentPos = 1 then decide (low ≤ target) else decide (target ≤ high)
  let currentPos := if hitExit then 0 else currentPos
  let peak := if hitExit then 0 else peak
  if direction = lastTrendDir then
    ⟨currentPos, entryP, peak, target, lastTrendDir, hitExit, false, false, none⟩
  else if direction = 0 then ⟨currentPos, entryP, peak, target, direction, hitExit, false, false, none⟩
  else
    let flipped := if direction = downtrend then -1 else 1
    ⟨flipped, close, 0, target, direction, hitExit, currentPos ≠ 0, true,
      some (if flipped = -1 then "SHORT" else "LONG")⟩

/-! ## The strategy -/

/-- The parameters of the strategy. -/
structure SuploXau where
  alphaId : String
  version : String
  preset : ℕ := 5
  retracePct : PyFloat := .fin (5 / 100)
  factor : PyFloat := 3
  atrPeriod : ℕ := 10
  symbol : String := "XAUUSDT"
  exchange : String := "binance"
  capital : PyFloat := 10000
  leverage : PyFloat := 10
  positionFraction : PyFloat := 1
  feePct : PyFloat := .fin (5 / 10000)
  minBars : ℕ := 80
  /-- `timestamp_semantics` is `close`. -/
  closeTimes : Bool := false
  tradeWeekends : Bool := true

/-- An entry of `_positions`. -/
structure SuploPosition where
  positionId : String
  side : String
  entry : PyFloat
  qty : PyFloat
  entryCandleOpenMs : ℤ
  lastTrendDir : ℤ
  peakGain : PyFloat := 0
  tp : Option PyFloat := none
  tpEmitted : Option PyFloat := none

/-- What the strategy keeps between two scans. -/
structure SuploState where
  lastTrendDir : ℤ := 0
  last15mOpen : Option ℤ := none
  pending15mOpen : Option ℤ := none
  positions : Table SuploPosition.positionId := .empty

/-- What one scan takes from outside: the candles of the cache and `can_open_trades`. -/
structure ScanInput where
  candles : List Candle
  canOpen : Bool := true

/-- What `_manage_on_bar` decides on a candle. -/
inductive Trail
  | flat
  | hit (target : PyFloat)
  | trailing (peak target : PyFloat)

/-- The level that a trailing position moves to. -/
def Trail.level? : Trail → Option PyFloat
  | .trailing _ target => some target
  | _ => none

namespace SuploXau

def m15Ms : ℤ := 15 * 60 * 1000

/-- `_timestamp_ms`. -/
def timestampMs (value : ℤ) : ℤ := if |value| < 1000000000000 then value * 1000 else value

variable (x : SuploXau)

/-- `_bar_open_ms`. -/
def barOpenMs (value : ℤ) : ℤ :=
  let valueMs := timestampMs value
  if x.closeTimes then (if valueMs % 1000 = 999 then valueMs + 1 else valueMs) - m15Ms else valueMs

/-- `should_scan_after_event` for a kline of the symbol and timeframe of the strategy; `latest` is
what the cache has. -/
def shouldScanAfterEvent (ready : Bool) (latest : Option ℤ) (s : SuploState) : SuploState :=
  match ready, latest with
  | true, some latest =>
    let openMs := x.barOpenMs latest
    if s.last15mOpen.any fun last => openMs ≤ last then s
    else { s with pending15mOpen := some openMs }
  | _, _ => s

/-- `_is_trade_time`: day 0 of the epoch is a Thursday. -/
def isTradeTime (candleOpen : ℤ) : Bool :=
  x.tradeWeekends || ((candleOpen + m15Ms) / 86400000 + 3) % 7 < 5

/-- `_series`. -/
def series (input : ScanInput) : List Candle :=
  input.candles.map fun c => { c with time := x.barOpenMs c.time }

/-- `_existing_position`. -/
def existingPosition (s : SuploState) : Option SuploPosition := s.positions.rows.head?

/-- The name of a position's UUID. -/
def positionName (side : String) (candleOpenMs : ℤ) : String :=
  x.alphaId ++ "|" ++ x.version ++ "|" ++ toString x.preset ++ "|" ++ toString candleOpenMs ++ "|" ++
    side

/-- The quantity of `_open_if_allowed`. -/
def positionQty (entry : PyFloat) : Except StrategyError PyFloat :=
  if entry.truthy = false then .error .zeroDivision
  else match x.capital * x.positionFraction * x.leverage / entry * 1000 with
    | .fin q => .ok (.fin (⌊q⌋ / 1000))
    | _ => .error .notFinite

def jsonOpt (v : Option PyFloat) : Json := (v.map .float).getD .null

/-- A call of `emit_signal`. -/
def call (type : String) (fields : Entries) : Call := ⟨⟨x.alphaId, x.version⟩, type, fields⟩

/-- The position dict as JSON, its keys sorted. -/
def runtimeJson (p : SuploPosition) : Json := .obj
  [("alpha_id", .str x.alphaId), ("entry", .float p.entry),
   ("entry_candle_open_ms", .int p.entryCandleOpenMs), ("last_trend_dir", .int p.lastTrendDir),
   ("peak_gain", .float p.peakGain), ("position_id", .str p.positionId),
   ("preset", .int x.preset), ("qty", .float p.qty), ("side", .str p.side), ("sl", .null),
   ("symbol", .str x.symbol), ("tp", jsonOpt p.tp), ("version", .str x.version)]

/-- The OPEN of `_open_if_allowed`. -/
def openCall (p : SuploPosition) : Call := x.call "OPEN"
  [("position_id", .str p.positionId), ("symbol", .str x.symbol), ("side", .str p.side),
   ("entry", .float p.entry), ("qty", .float p.qty), ("tp", .null), ("sl", .null),
   ("leverage", .float x.leverage), ("exchange", .str x.exchange), ("fee_pct", .float x.feePct),
   ("tf", .str "15m"), ("signal_candle_open_ms", .int p.entryCandleOpenMs),
   ("metadata", dumps (.obj
     [("allow_duplicate_position", .bool false), ("preset", .int x.preset),
      ("retrace_pct", .float x.retracePct), ("strategy_runtime", x.runtimeJson p)]))]

/-- The CLOSE of `_close_position`. -/
def closeCall (positionId reason : String) (exitPrice : Option PyFloat) (candleOpenMs : ℤ) : Call :=
  x.call "CLOSE"
    [("position_id", .str positionId), ("symbol", .str x.symbol), ("reason", .str reason),
     ("exit_price", jsonOpt exitPrice),
     ("metadata", dumps (.obj
       [("preset", .int x.preset), ("signal_candle_open_ms", .int candleOpenMs),
        ("source", .str "suplo_xau_bar")]))]

/-- The MODIFY of `_manage_on_bar`. -/
def modifyCall (positionId : String) (target : PyFloat) : Call := x.call "MODIFY"
  [("position_id", .str positionId), ("symbol", .str x.symbol), ("tp", .float target),
   ("metadata", dumps (.obj
     [("preset", .int x.preset), ("reason", .str "TRAILING_TP_UPDATE")]))]

/-- The decision of `_manage_on_bar`. -/
def trail (p : SuploPosition) (c : Candle) : Trail :=
  let currGain := if p.side = "LONG" then c.high - p.entry else p.entry - c.low
  let peak := p.peakGain.max currGain
  if peak ≤ 0 then .flat
  else
    let allowedGain := peak * (1 - x.retracePct)
    let target := if p.side = "LONG" then p.entry + allowedGain else p.entry - allowedGain
    if (if p.side = "LONG" then c.low ≤ target else target ≤ c.high) then .hit target
    else .trailing peak target

/-- The trailing level differs from the one published last. -/
def Moved (p : SuploPosition) (target : PyFloat) : Prop :=
  ∀ emitted, p.tpEmitted = some emitted → PyFloat.fin (1 / 1000000000) < (emitted - target).abs

instance (p : SuploPosition) (target : PyFloat) : Decidable (Moved p target) :=
  match h : p.tpEmitted with
  | none => .isTrue fun _ he => by rw [h] at he; cases he
  | some emitted =>
    decidable_of_iff (PyFloat.fin (1 / 1000000000) < (emitted - target).abs)
      ⟨fun hlt e he => by rw [h] at he; cases he; exact hlt, fun hm => hm emitted h⟩

/-- `position[…] = …` on the entry of a position. -/
def update (positionId : String) (f : SuploPosition → SuploPosition)
    (hf : ∀ p, (f p).positionId = p.positionId) (s : SuploState) : SuploState :=
  { s with positions := s.positions.modify positionId f hf }

variable (digest : Logical → String) (uuid5 : String → String) (env : ℕ → DispatchEnv)

/-- `_close_position`. -/
def closePosition (positionId reason : String) (exitPrice : Option PyFloat) (candleOpenMs : ℤ) :
    Method SuploState Unit := do
  emitSignal digest env (x.closeCall positionId reason exitPrice candleOpenMs)
  modifyState fun s => { s with positions := s.positions.erase positionId }

/-- `_open_if_allowed`. No position is open when it stores one. -/
def openIfAllowed (side : String) (entry : PyFloat) (candleOpenMs : ℤ) :
    Method SuploState Unit := do
  let s ← getState
  if (existingPosition s).isSome then pure ()
  else do
    let qty ← Coro.ofExcept (x.positionQty entry)
    if qty < .fin (1 / 1000) then pure ()
    else do
      let position : SuploPosition :=
        { positionId := uuid5 (x.positionName side candleOpenMs), side, entry, qty
          entryCandleOpenMs := candleOpenMs
          lastTrendDir := if side = "LONG" then uptrend else downtrend }
      emitSignal digest env (x.openCall position)
      modifyState fun s => { s with positions := s.positions.insertOrIgnore position }

def withPeak (peak : PyFloat) (p : SuploPosition) : SuploPosition := { p with peakGain := peak }

def withTarget (peak target : PyFloat) (p : SuploPosition) : SuploPosition :=
  { p with peakGain := peak, tp := some target }

def withEmitted (target : PyFloat) (p : SuploPosition) : SuploPosition :=
  { p with tpEmitted := some target }

def withTrendDir (p : SuploPosition) : SuploPosition :=
  { p with lastTrendDir := if p.side = "LONG" then uptrend else downtrend }

/-- `_manage_on_bar`, on the newest candle. -/
def manageOnBar (c : Candle) : Method SuploState Unit := do
  let s ← getState
  match existingPosition s with
  | none => pure ()
  | some position =>
    match x.trail position c with
    | .flat => modifyState (update position.positionId (withPeak 0) fun _ => rfl)
    | .hit target =>
      x.closePosition digest env position.positionId "TRAILING_TP" (some target) c.time
    | .trailing peak target => do
      modifyState (update position.positionId (withTarget peak target) fun _ => rfl)
      if Moved position target then do
        emitSignal digest env (x.modifyCall position.positionId target)
        modifyState (update position.positionId (withEmitted target) fun _ => rfl)
      else pure ()

/-- `_pos_from_position`. -/
def posFromPosition : Option SuploPosition → ℤ
  | none => 0
  | some p => if p.side = "LONG" then 1 else -1

/-- The step of `_evaluate_entries` in a state. -/
def entryStep (s : SuploState) (c : Candle) (direction : ℤ) : StateStep :=
  let position := existingPosition s
  stepStateMachine (posFromPosition position) ((position.map SuploPosition.entry).getD 0)
    ((position.map SuploPosition.peakGain).getD 0) s.lastTrendDir c.high c.low c.close direction
    x.retracePct

/-- `_evaluate_entries`, on the newest candle. -/
def evaluateEntries (c : Candle) (direction : ℤ) : Method SuploState Unit := do
  let s ← getState
  let step := x.entryStep s c direction
  modifyState fun s => { s with lastTrendDir := step.lastTrendDir }
  match existingPosition s with
  | none => pure ()
  | some position =>
    if step.trailingExitHit then
      x.closePosition digest env position.positionId "TRAILING_TP" step.targetExitPrice c.time
    else if step.flipExitHit then
      x.closePosition digest env position.positionId "TREND_FLIP" (some step.entryPrice) c.time
    else pure ()
  match step.flipOpen, step.side with
  | true, some side => x.openIfAllowed digest uuid5 env side step.entryPrice c.time
  | _, _ => pure ()

/-- The first scan of a process: the trend is that of the position, or of the candles with the
default factor and period. -/
def adopt (pending : ℤ) (candles : List Candle) (s : SuploState) : SuploState :=
  match existingPosition s with
  | some p =>
    { update p.positionId withTrendDir (fun _ => rfl) s with
      last15mOpen := some pending
      pending15mOpen := none
      lastTrendDir := (withTrendDir p).lastTrendDir }
  | none =>
    { s with
      last15mOpen := some pending
      pending15mOpen := none
      lastTrendDir := (supertrendDirections 3 10 candles).getLast?.getD 0 }

/-- The candle that a scan works on: the newest one, when it is the pending one and there are
enough of them. -/
def scanCandle (input : ScanInput) (s : SuploState) : Option Candle :=
  if (x.series input).length < x.minBars then none
  else (x.series input).getLast?.filter fun c => some c.time = s.pending15mOpen

/-- `scan`. -/
def scan (input : ScanInput) : Method SuploState Unit := do
  let s ← getState
  match x.scanCandle input s with
  | none => pure ()
  | some c =>
    if s.last15mOpen = none then modifyState (adopt c.time (x.series input))
    else do
      modifyState fun s => { s with last15mOpen := some c.time, pending15mOpen := none }
      x.manageOnBar digest env c
      if input.canOpen ∧ x.isTradeTime c.time then
        x.evaluateEntries digest uuid5 env c
          ((supertrendDirections x.factor x.atrPeriod (x.series input)).getLast?.getD 0)
      else pure ()

/-- A kline event, a scan, or a new process with the positions that it loads. -/
inductive Event
  | kline (ready : Bool) (latest : Option ℤ)
  | scan (input : ScanInput)
  | restart (loaded : Table SuploPosition.positionId) (ok : Bool)

/-- One event; an exception leaves the state as it is at that point. -/
def step (w : SuploState × Outbox) : Event → SuploState × Outbox
  | .kline ready latest => (x.shouldScanAfterEvent ready latest w.1, w.2)
  | .scan input => ((x.scan digest uuid5 env input).run w).2
  | .restart loaded ok => ({ positions := loaded }, w.2.restart ok)

/-- A run of the strategy. -/
def run (w : SuploState × Outbox) (events : List Event) : SuploState × Outbox :=
  events.foldl (x.step digest uuid5 env) w

end SuploXau

end PaperTrade.Runner
