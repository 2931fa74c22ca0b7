import PaperTrade.Runner.SuploXau

/-!
# `SupertrendXauV2RunnerStrategy` and `SuploAtr1RunnerStrategy`

Two Supertrend strategies that enter on a flip of the direction on 15m candles and trail the position
minute by minute on 1m candles. The second one trails only a profit of at least a multiple of the ATR
of the entry candle; the names of their fields and of their positions differ too. `Family` has what
they differ in.

`save_positions` and the price alerts are left out, as in `SuploXau`.
-/

namespace PaperTrade.Runner

open PaperTrade.Runtime

/-! ## The reference -/

/-- `REF_SLIPPAGE`. -/
def refSlippage : PyFloat := .fin (1 / 10000)

/-- What `process_long_minute` and `process_short_minute` return: an exit and its price, or the best
price and the trailing level of the next minute. -/
inductive MinuteStep
  | exited (price : PyFloat)
  | holds (best : PyFloat) (trailing : Option PyFloat)
deriving DecidableEq

/-- The level of a position that trails. -/
def nextTrailing (better : PyFloat → PyFloat → PyFloat) (active : Option PyFloat)
    (calculated : PyFloat) : PyFloat :=
  match active with
  | none => calculated
  | some active => better active calculated

/-- `process_long_minute` and `process_long_minute_atr1`: `inactive` is the gate of the second one on
the peak profit. -/
def longMinute (inactive : PyFloat → Bool) (c : Candle) (entry bestHigh : PyFloat)
    (active : Option PyFloat) (retracePct : PyFloat) : MinuteStep :=
  if active.any fun active => decide (c.opening ≤ active) then .exited (c.opening * (1 - refSlippage))
  else match active.filter fun active => decide (c.low ≤ active) with
    | some active => .exited (active * (1 - refSlippage))
    | none =>
      let best := bestHigh.max c.high
      let peakProfit := best - entry
      if inactive peakProfit || decide (peakProfit ≤ 0) then .holds best active
      else .holds best (some (nextTrailing .max active (entry + peakProfit * (1 - retracePct))))

/-- `process_short_minute` and `process_short_minute_atr1`. -/
def shortMinute (inactive : PyFloat → Bool) (c : Candle) (entry bestLow : PyFloat)
    (active : Option PyFloat) (retracePct : PyFloat) : MinuteStep :=
  if active.any fun active => decide (active ≤ c.opening) then .exited (c.opening * (1 + refSlippage))
  else match active.filter fun active => decide (active ≤ c.high) with
    | some active => .exited (active * (1 + refSlippage))
    | none =>
      let best := bestLow.min c.low
      let peakProfit := entry - best
      if inactive peakProfit || decide (peakProfit ≤ 0) then .holds best active
      else .holds best (some (nextTrailing .min active (entry - peakProfit * (1 - retracePct))))

/-- `process_long_minute`. -/
def processLongMinute := longMinute fun _ => false

/-- `process_short_minute`. -/
def processShortMinute := shortMinute fun _ => false

/-- `process_long_minute_atr1`. -/
def processLongMinuteAtr1 (minAtrProfit : PyFloat) := longMinute fun profit => profit < minAtrProfit

/-- `process_short_minute_atr1`. -/
def processShortMinuteAtr1 (minAtrProfit : PyFloat) := shortMinute fun profit => profit < minAtrProfit

/-! ## The strategies -/

/-- The parameters that both strategies have. -/
structure MinuteParams where
  alphaId : String
  version : String
  retracePct : PyFloat := .fin (5 / 100)
  factor : PyFloat := 3
  atrPeriod : ℕ := 10
  symbol : String := "XAUUSDT"
  exchange : String := "binance"
  capital : PyFloat := 10000
  leverage : PyFloat := 10
  positionFraction : PyFloat := 1
  feePct : PyFloat := .fin (5 / 10000)
  minM15Bars : ℕ := 80
  /-- `timestamp_semantics` is `close`. -/
  closeTimes : Bool := false

/-- What the two strategies differ in. -/
inductive Family
  | supertrendXauV2 (preset : ℕ)
  | suploAtr1 (atrMultiplier : PyFloat)

structure MinuteTrailing extends MinuteParams where
  family : Family

/-- `SupertrendXauV2RunnerStrategy`. -/
def supertrendXauV2 (p : MinuteParams) (preset : ℕ) : MinuteTrailing := ⟨p, .supertrendXauV2 preset⟩

/-- `SuploAtr1RunnerStrategy`. -/
def suploAtr1 (p : MinuteParams) (atrMultiplier : PyFloat) : MinuteTrailing :=
  ⟨p, .suploAtr1 atrMultiplier⟩

/-- An entry of `_positions`; a loaded one may lack what trails it. -/
structure MinutePosition where
  positionId : String
  side : String
  entry : PyFloat
  qty : PyFloat
  entryCandleOpenMs : ℤ
  lastTrendDir : ℤ
  bestHigh : Option PyFloat
  bestLow : Option PyFloat
  activeTrailing : Option PyFloat := none
  tp : Option PyFloat := none
  /-- `min_atr_profit`, of the second strategy. -/
  minAtrProfit : Option PyFloat := none

/-- What a strategy keeps between two scans. -/
structure MinuteState where
  lastTrendDir : ℤ := 0
  last15mOpen : Option ℤ := none
  last1mOpen : Option ℤ := none
  pending15mOpen : Option ℤ := none
  pending1mOpen : Option ℤ := none
  positions : Table MinutePosition.positionId := .empty

/-- The candles of the cache. -/
structure MinuteInput where
  m15 : List Candle
  m1 : List Candle

namespace MinuteTrailing

def m1Ms : ℤ := 60 * 1000

variable (x : MinuteTrailing)

/-- `_bar_open_ms`. -/
def barOpenMs (value timeframeMs : ℤ) : ℤ :=
  let valueMs := SuploXau.timestampMs value
  if x.closeTimes then (if valueMs % 1000 = 999 then valueMs + 1 else valueMs) - timeframeMs
  else valueMs

/-- `should_scan_after_event` for a 15m kline of the symbol; `latest` is what the cache has. -/
def shouldScanAfter15m (ready : Bool) (latest : Option ℤ) (s : MinuteState) : MinuteState :=
  match ready, latest with
  | true, some latest =>
    let openMs := x.barOpenMs latest SuploXau.m15Ms
    if s.last15mOpen.any fun last => openMs ≤ last then s
    else { s with pending15mOpen := some openMs }
  | _, _ => s

/-- `should_scan_after_event` for a 1m kline. -/
def shouldScanAfter1m (ready : Bool) (latest : Option ℤ) (s : MinuteState) : MinuteState :=
  match ready, latest with
  | true, some latest =>
    let openMs := x.barOpenMs latest m1Ms
    if s.last1mOpen.any fun last => openMs ≤ last then s
    else { s with pending1mOpen := some openMs }
  | _, _ => s

/-- `_series`. -/
def series (timeframeMs : ℤ) (candles : List Candle) : List Candle :=
  candles.map fun c => { c with time := x.barOpenMs c.time timeframeMs }

/-- `_existing_position`. -/
def existingPosition (s : MinuteState) : Option MinutePosition := s.positions.rows.head?

/-- The name of a position's UUID. -/
def positionName (side : String) (candleOpenMs : ℤ) : String :=
  match x.family with
  | .supertrendXauV2 preset =>
    x.alphaId ++ "|" ++ x.version ++ "|" ++ toString preset ++ "|" ++ toString candleOpenMs ++ "|" ++
      side
  | .suploAtr1 _ => x.alphaId ++ "|" ++ x.version ++ "|" ++ toString candleOpenMs ++ "|" ++ side

/-- The quantity of `_open_if_allowed`. -/
def positionQty (entry : PyFloat) : Except StrategyError PyFloat :=
  if entry.truthy = false then .error .zeroDivision
  else match x.capital * x.positionFraction * x.leverage / entry * 1000 with
    | .fin q => .ok (.fin (⌊q⌋ / 1000))
    | _ => .error .notFinite

/-- `_scan_15m`: the profit from which a position trails, of the ATR of the entry candle. -/
def minAtrProfit (series : List Candle) : Option PyFloat :=
  match x.family with
  | .supertrendXauV2 _ => none
  | .suploAtr1 multiplier =>
    some (((atrRma x.atrPeriod series).getLast?.map fun atr => atr * multiplier).getD 0)

/-- The position that `_open_if_allowed` stores. -/
def newPosition (positionId side : String) (entry qty : PyFloat) (candleOpenMs : ℤ)
    (minAtrProfit : Option PyFloat) : MinutePosition where
  positionId := positionId
  side := side
  entry := entry
  qty := qty
  entryCandleOpenMs := candleOpenMs
  lastTrendDir := if side = "LONG" then uptrend else downtrend
  bestHigh := some (if side = "LONG" then entry else 0)
  bestLow := some (if side = "SHORT" then entry else 0)
  minAtrProfit := minAtrProfit

def jsonOpt (v : Option PyFloat) : Json := (v.map .float).getD .null

/-- A call of `emit_signal`. -/
def call (type : String) (fields : Entries) : Call := ⟨⟨x.alphaId, x.version⟩, type, fields⟩

/-- The position dict as JSON, its keys sorted. -/
def runtimeJson (p : MinutePosition) : Json :=
  let front : Entries :=
    [("active_trailing", jsonOpt p.activeTrailing), ("alpha_id", .str x.alphaId),
      ("best_high", jsonOpt p.bestHigh), ("best_low", jsonOpt p.bestLow), ("entry", .float p.entry),
      ("entry_candle_open_ms", .int p.entryCandleOpenMs), ("last_trend_dir", .int p.lastTrendDir)]
  let back : Entries :=
    [("qty", .float p.qty), ("side", .str p.side), ("sl", .null), ("symbol", .str x.symbol),
      ("tp", jsonOpt p.tp), ("version", .str x.version)]
  .obj (front ++ (match x.family with
    | .supertrendXauV2 preset => [("position_id", .str p.positionId), ("preset", .int preset)]
    | .suploAtr1 _ =>
      [("min_atr_profit", jsonOpt p.minAtrProfit), ("position_id", .str p.positionId)]) ++ back)

/-- The metadata of the OPEN. -/
def openMetadata (p : MinutePosition) : Json :=
  match x.family with
  | .supertrendXauV2 preset => .obj
    [("allow_duplicate_position", .bool false), ("preset", .int preset),
      ("retrace_pct", .float x.retracePct), ("strategy_runtime", x.runtimeJson p)]
  | .suploAtr1 multiplier => .obj
    [("allow_duplicate_position", .bool false), ("atr_multiplier", .float multiplier),
      ("min_atr_profit", jsonOpt p.minAtrProfit), ("retrace_pct", .float x.retracePct),
      ("strategy_runtime", x.runtimeJson p)]

/-- The OPEN of `_open_if_allowed`. -/
def openCall (p : MinutePosition) : Call := x.call "OPEN"
  [("position_id", .str p.positionId), ("symbol", .str x.symbol), ("side", .str p.side),
   ("entry", .float p.entry), ("qty", .float p.qty), ("tp", .null), ("sl", .null),
   ("leverage", .float x.leverage), ("exchange", .str x.exchange), ("fee_pct", .float x.feePct),
   ("tf", .str "15m"), ("signal_candle_open_ms", .int p.entryCandleOpenMs),
   ("metadata", dumps (x.openMetadata p))]

/-- The metadata of the CLOSE. -/
def closeMetadata (candleOpenMs : ℤ) : Json :=
  match x.family with
  | .supertrendXauV2 preset => .obj
    [("preset", .int preset), ("ref_is_executable", .bool true),
      ("signal_candle_open_ms", .int candleOpenMs), ("source", .str "supertrend_xau_v2")]
  | .suploAtr1 _ => .obj
    [("ref_is_executable", .bool true), ("signal_candle_open_ms", .int candleOpenMs),
      ("source", .str "suplo_atr1_5")]

/-- The CLOSE of `_close_position`. -/
def closeCall (positionId reason : String) (exitPrice : PyFloat) (candleOpenMs : ℤ) : Call :=
  x.call "CLOSE"
    [("position_id", .str positionId), ("symbol", .str x.symbol), ("reason", .str reason),
     ("exit_price", .float exitPrice), ("metadata", dumps (x.closeMetadata candleOpenMs))]

/-- `_scan_1m`: one minute of a position. -/
def minuteStep (p : MinutePosition) (c : Candle) : MinuteStep :=
  if p.side = "LONG" then
    let best := p.bestHigh.getD p.entry
    match x.family with
    | .supertrendXauV2 _ => processLongMinute c p.entry best p.activeTrailing x.retracePct
    | .suploAtr1 _ =>
      processLongMinuteAtr1 (p.minAtrProfit.getD 0) c p.entry best p.activeTrailing x.retracePct
  else
    let best := p.bestLow.getD p.entry
    match x.family with
    | .supertrendXauV2 _ => processShortMinute c p.entry best p.activeTrailing x.retracePct
    | .suploAtr1 _ =>
      processShortMinuteAtr1 (p.minAtrProfit.getD 0) c p.entry best p.activeTrailing x.retracePct

/-- `_scan_1m`: what it stores in a position that it holds. -/
def trailed (best : PyFloat) (trailing : Option PyFloat) (p : MinutePosition) : MinutePosition :=
  { p with
    bestHigh := if p.side = "LONG" then some best else p.bestHigh
    bestLow := if p.side = "LONG" then p.bestLow else some best
    activeTrailing := trailing
    tp := trailing }

def withTrendDir (p : MinutePosition) : MinutePosition :=
  { p with lastTrendDir := if p.side = "LONG" then uptrend else downtrend }

/-- `position[…] = …` on the entry of a position. -/
def update (positionId : String) (f : MinutePosition → MinutePosition)
    (hf : ∀ p, (f p).positionId = p.positionId) (s : MinuteState) : MinuteState :=
  { s with positions := s.positions.modify positionId f hf }

section Scan

variable (digest : Logical → String) (uuid5 : String → String) (env : ℕ → DispatchEnv)

/-- `_close_position`. -/
def closePosition (positionId reason : String) (exitPrice : PyFloat) (candleOpenMs : ℤ) :
    Method MinuteState Unit := do
  emitSignal digest env (x.closeCall positionId reason exitPrice candleOpenMs)
  modifyState fun s => { s with positions := s.positions.erase positionId }

/-- `_open_if_allowed`. No position is open when it stores one. -/
def openIfAllowed (side : String) (entry : PyFloat) (candleOpenMs : ℤ)
    (minAtrProfit : Option PyFloat) : Method MinuteState Unit := do
  let s ← getState
  if (existingPosition s).isSome then pure ()
  else do
    let qty ← Coro.ofExcept (x.positionQty entry)
    if qty < .fin (1 / 1000) then pure ()
    else do
      let position :=
        newPosition (uuid5 (x.positionName side candleOpenMs)) side entry qty candleOpenMs minAtrProfit
      emitSignal digest env (x.openCall position)
      modifyState fun s => { s with positions := s.positions.insertOrIgnore position }

/-- `_scan_15m`: the first candle of a process takes the trend of the position, or of the candles. -/
def adopt (newest : Candle) (series : List Candle) (s : MinuteState) : MinuteState :=
  match existingPosition s with
  | some p =>
    { update p.positionId withTrendDir (fun _ => rfl) s with
      last15mOpen := some newest.time
      lastTrendDir := (withTrendDir p).lastTrendDir }
  | none =>
    { s with
      last15mOpen := some newest.time
      lastTrendDir := (supertrendDirections x.factor x.atrPeriod series).getLast?.getD 0 }

/-- `_scan_15m`: the position is on the other side of a new direction. -/
def Opposite (side : String) (direction : ℤ) : Prop :=
  (side = "LONG" ∧ direction = downtrend) ∨ (side = "SHORT" ∧ direction = uptrend)

instance (side : String) (direction : ℤ) : Decidable (Opposite side direction) :=
  inferInstanceAs (Decidable (_ ∨ _))

/-- `_scan_15m` from the comparison of the directions on. -/
def flip (newest : Candle) (series : List Candle) (direction : ℤ) : Method MinuteState Unit := do
  let s ← getState
  if direction = s.lastTrendDir then pure ()
  else do
    modifyState fun s => { s with lastTrendDir := direction }
    let side := if direction = downtrend then "SHORT" else "LONG"
    match existingPosition s with
    | none => x.openIfAllowed digest uuid5 env side newest.close newest.time (x.minAtrProfit series)
    | some position =>
      if Opposite position.side direction then do
        x.closePosition digest env position.positionId "TREND_FLIP" newest.close newest.time
        x.openIfAllowed digest uuid5 env side newest.close newest.time (x.minAtrProfit series)
      else pure ()

/-- `_scan_15m`. -/
def scan15m (candles : List Candle) (candleOpenMs : ℤ) : Method MinuteState Unit := do
  let series := x.series SuploXau.m15Ms candles
  match series.getLast? with
  | none => pure ()
  | some newest =>
    if series.length < x.minM15Bars ∨ newest.time ≠ candleOpenMs then pure ()
    else do
      let s ← getState
      if s.last15mOpen = none then modifyState (x.adopt newest series)
      else do
        modifyState fun s => { s with last15mOpen := some newest.time }
        x.flip digest uuid5 env newest series
          ((supertrendDirections x.factor x.atrPeriod series).getLast?.getD 0)

/-- `_scan_1m`. -/
def scan1m (candles : List Candle) (candleOpenMs : ℤ) : Method MinuteState Unit := do
  match (x.series m1Ms candles).getLast? with
  | none => pure ()
  | some newest =>
    if newest.time ≠ candleOpenMs then pure ()
    else do
      modifyState fun s => { s with last1mOpen := some newest.time }
      let s ← getState
      match existingPosition s with
      | none => pure ()
      | some position =>
        match x.minuteStep position newest with
        | .exited price =>
          x.closePosition digest env position.positionId "TRAILING_TP" price newest.time
        | .holds best trailing =>
          modifyState (update position.positionId (trailed best trailing) fun _ => rfl)

/-- `scan`: the pending 15m candle. -/
def scanPending15m (input : MinuteInput) : Method MinuteState Unit := do
  let s ← getState
  match s.pending15mOpen with
  | none => pure ()
  | some candleOpenMs => do
    x.scan15m digest uuid5 env input.m15 candleOpenMs
    modifyState fun s => { s with pending15mOpen := none }

/-- `scan`: the pending 1m candle. -/
def scanPending1m (input : MinuteInput) : Method MinuteState Unit := do
  let s ← getState
  match s.pending1mOpen with
  | none => pure ()
  | some candleOpenMs => do
    x.scan1m digest env input.m1 candleOpenMs
    modifyState fun s => { s with pending1mOpen := none }

/-- `scan`. -/
def scan (input : MinuteInput) : Method MinuteState Unit := do
  x.scanPending15m digest uuid5 env input
  x.scanPending1m digest env input

/-- A kline event of either timeframe, a scan, or a new process with the positions that it loads. -/
inductive Event
  | kline15m (ready : Bool) (latest : Option ℤ)
  | kline1m (ready : Bool) (latest : Option ℤ)
  | scan (input : MinuteInput)
  | restart (loaded : Table MinutePosition.positionId) (ok : Bool)

/-- One event; an exception leaves the state as it is at that point. -/
def step (w : MinuteState × Outbox) : Event → MinuteState × Outbox
  | .kline15m ready latest => (x.shouldScanAfter15m ready latest w.1, w.2)
  | .kline1m ready latest => (x.shouldScanAfter1m ready latest w.1, w.2)
  | .scan input => ((x.scan digest uuid5 env input).run w).2
  | .restart loaded ok => ({ positions := loaded }, w.2.restart ok)

/-- A run of the strategy. -/
def run (w : MinuteState × Outbox) (events : List Event) : MinuteState × Outbox :=
  events.foldl (x.step digest uuid5 env) w

end Scan

end MinuteTrailing

end PaperTrade.Runner
