import PaperTrade.Runner.SuploXau

/-!
# `SupertrendAdxEma13TpRunnerStrategy`

A Supertrend strategy on 15m candles: a flip of the trend closes the position and opens the opposite one,
and a lower peak of the ADX, confirmed by a close beyond the EMA, closes it early. All decisions are taken
on the closed candles; the open of the newest one is the price of the signal.

The strategy changes its book after the dispatch of a signal, and does not look at the reply.
-/

namespace PaperTrade.Runner

open PaperTrade.Runtime

/-! ## Indicators -/

/-- The loop of `_wilder_rma` and of `_ema`. -/
def rmaLoop (alpha : PyFloat) : PyFloat → List PyFloat → List PyFloat
  | _, [] => []
  | prev, value :: rest =>
    let next := alpha * value + (1 - alpha) * prev
    next :: rmaLoop alpha next rest

/-- `sum(values)`. -/
def sumValues (values : List PyFloat) : PyFloat := values.foldl (· + ·) 0

/-- `_wilder_rma`, for a positive period. -/
def wilderRma (period : ℕ) (values : List PyFloat) : List PyFloat :=
  if values.length < period then List.replicate values.length .nan
  else
    let seed := sumValues (values.take period) / .fin period
    List.replicate (period - 1) .nan ++ seed :: rmaLoop (1 / .fin period) seed (values.drop period)

/-- `compute_dmi_adx`: `+DM`, `-DM` and the true range of a candle after another one. -/
def directionalMove (prev c : Candle) : PyFloat × PyFloat × PyFloat :=
  let upMove := c.high - prev.high
  let downMove := prev.low - c.low
  (if downMove < upMove ∧ 0 < upMove then upMove else 0,
    if upMove < downMove ∧ 0 < downMove then downMove else 0,
    trueRange prev.close c)

/-- `compute_dmi_adx`: the moves of all candles. -/
def directionalMoves : List Candle → List (PyFloat × PyFloat × PyFloat)
  | [] => []
  | c :: rest => (0, 0, c.high - c.low) :: List.zipWith directionalMove (c :: rest) rest

/-- `compute_dmi_adx`: the DX of one candle, of its smoothed moves. -/
def dxOf (plus minus range : PyFloat) : PyFloat :=
  if range.isFinite ∧ range.truthy then
    let plusDi := 100 * plus / range
    let minusDi := 100 * minus / range
    let denominator := plusDi + minusDi
    if denominator.truthy then 100 * (plusDi - minusDi).abs / denominator else .nan
  else .nan

/-- `compute_dmi_adx`: the ADX after its seed. -/
def adxLoop (alpha : PyFloat) : PyFloat → List PyFloat → List PyFloat
  | _, [] => []
  | prev, dx :: rest =>
    let next := if dx.isFinite then alpha * dx + (1 - alpha) * prev else prev
    next :: adxLoop alpha next rest

/-- `compute_dmi_adx`: the ADX starts with the mean of the first `smoothing` finite values. -/
def adxFrom (smoothing : ℕ) (finite : List PyFloat) : List PyFloat → List PyFloat
  | [] => []
  | dx :: rest =>
    let finite := if dx.isFinite then finite ++ [dx] else finite
    if finite.length = smoothing then
      let seed := sumValues finite / .fin smoothing
      seed :: adxLoop (1 / .fin smoothing) seed rest
    else .nan :: adxFrom smoothing finite rest

/-- The ADX of `compute_dmi_adx`. -/
def computeAdx (diLength adxSmoothing : ℕ) (candles : List Candle) : List PyFloat :=
  let moves := directionalMoves candles
  let plus := wilderRma diLength (moves.map fun m => m.1)
  let minus := wilderRma diLength (moves.map fun m => m.2.1)
  let range := wilderRma diLength (moves.map fun m => m.2.2)
  adxFrom adxSmoothing [] (List.zipWith (fun pm tr => dxOf pm.1 pm.2 tr) (List.zip plus minus) range)

/-- `max(values)` of a list that is not empty. -/
def maxValues (values : List PyFloat) : PyFloat :=
  match values with
  | [] => .nan
  | v :: rest => rest.foldl PyFloat.max v

/-- `confirmed_pivot_high`. -/
def confirmedPivotHigh (values : List PyFloat) (confirmationIndex : ℤ) (left right : ℕ) :
    Option (ℕ × PyFloat) :=
  let pivotIndex := confirmationIndex - right
  if pivotIndex - left < 0 ∨ (values.length : ℤ) ≤ pivotIndex + right then none
  else
    let i := pivotIndex.toNat
    let window := (values.drop (i - left)).take (left + right + 1)
    let pivot := (values[i]?).getD .nan
    if pivot.isFinite = false ∨ window.any (fun v => !v.isFinite) then none
    else if pivot < maxValues (window.take left) ∨ pivot < maxValues (window.drop (left + 1)) then none
    else some (i, pivot)

/-- `_ema`. -/
def ema (period : ℕ) : List PyFloat → List PyFloat
  | [] => []
  | v :: rest => v :: rmaLoop (2 / (.fin period + 1)) v rest

/-! ## The strategy -/

/-- The parameters of the strategy. -/
structure SupertrendAdx where
  alphaId : String
  version : String
  factor : PyFloat := 3
  atrPeriod : ℕ := 10
  diLength : ℕ := 14
  adxSmoothing : ℕ := 14
  pivotLeft : ℕ := 4
  pivotRight : ℕ := 2
  minPeakDrop : PyFloat := 0
  emaPeriod : ℕ := 13
  symbol : String := "XAUUSDT"
  exchange : String := "binance"
  capital : PyFloat := 10000
  leverage : PyFloat := 10
  positionFraction : PyFloat := 1
  feePct : PyFloat := .fin (35 / 100000)
  minM15Bars : ℕ := 80
  /-- `timestamp_semantics` is `close`. -/
  closeTimes : Bool := false

/-- An entry of `_positions`. -/
structure AdxPosition where
  positionId : String
  side : String
  entry : PyFloat
  qty : PyFloat
  entryCandleOpenMs : ℤ
  lastTrendDir : ℤ
  previousAdxPeak : Option PyFloat := none
  adxWeaknessArmed : Bool := false

/-- What the strategy keeps between two scans. -/
structure AdxState where
  lastTrendDir : ℤ := 0
  last15mOpen : Option ℤ := none
  pending15mOpen : Option ℤ := none
  positions : Table AdxPosition.positionId := .empty

namespace SupertrendAdx

variable (x : SupertrendAdx)

/-- `strategy_type` and `signal_source`. -/
def strategyType : String := "supertrend_adx_4_2_ema13_tp"

/-- `_bar_open_ms`. -/
def barOpenMs (value : ℤ) : ℤ :=
  let valueMs := SuploXau.timestampMs value
  if x.closeTimes then (if valueMs % 1000 = 999 then valueMs + 1 else valueMs) - SuploXau.m15Ms
  else valueMs

/-- `should_scan_after_event` for a 15m kline of the symbol; `latest` is what the cache has. -/
def shouldScanAfterEvent (ready : Bool) (latest : Option ℤ) (s : AdxState) : AdxState :=
  match ready, latest with
  | true, some latest =>
    let openMs := x.barOpenMs latest
    if s.last15mOpen.any fun last => openMs ≤ last then s
    else { s with pending15mOpen := some openMs }
  | _, _ => s

/-- `_series`. -/
def series (candles : List Candle) : List Candle :=
  candles.map fun c => { c with time := x.barOpenMs c.time }

/-- `_existing_position`. -/
def existingPosition (s : AdxState) : Option AdxPosition := s.positions.rows.head?

/-- The name of a position's UUID. -/
def positionName (side : String) (candleOpenMs : ℤ) : String :=
  x.alphaId ++ "|" ++ x.version ++ "|adx|" ++ toString candleOpenMs ++ "|" ++ side

/-- The quantity of `_open_if_allowed`. -/
def positionQty (entry : PyFloat) : Except StrategyError PyFloat :=
  if entry.truthy = false then .error .zeroDivision
  else match x.capital * x.positionFraction * x.leverage / entry * 1000 with
    | .fin q => .ok (.fin (⌊q⌋ / 1000))
    | _ => .error .notFinite

/-- A call of `emit_signal`. -/
def call (type : String) (fields : Entries) : Call := ⟨⟨x.alphaId, x.version⟩, type, fields⟩

/-- The position dict of an OPEN as JSON, its keys sorted. -/
def runtimeJson (p : AdxPosition) : Json := .obj
  [("alpha_id", .str x.alphaId), ("entry", .float p.entry),
   ("entry_candle_open_ms", .int p.entryCandleOpenMs), ("last_trend_dir", .int p.lastTrendDir),
   ("position_id", .str p.positionId), ("previous_adx_peak", .null), ("qty", .float p.qty),
   ("side", .str p.side), ("sl", .null), ("symbol", .str x.symbol), ("tp", .null),
   ("tp_triggered", .bool false), ("version", .str x.version)]

/-- The OPEN of `_open_if_allowed`. -/
def openCall (p : AdxPosition) : Call := x.call "OPEN"
  [("position_id", .str p.positionId), ("symbol", .str x.symbol), ("side", .str p.side),
   ("entry", .float p.entry), ("qty", .float p.qty), ("tp", .null), ("sl", .null),
   ("leverage", .float x.leverage), ("exchange", .str x.exchange), ("fee_pct", .float x.feePct),
   ("tf", .str "15m"), ("signal_candle_open_ms", .int p.entryCandleOpenMs),
   ("metadata", dumps (.obj
     [("adx_smoothing", .int x.adxSmoothing), ("allow_duplicate_position", .bool false),
      ("di_length", .int x.diLength), ("min_peak_drop", .float x.minPeakDrop),
      ("pivot_left", .int x.pivotLeft), ("pivot_right", .int x.pivotRight),
      ("strategy_runtime", x.runtimeJson p), ("strategy_type", .str strategyType)]))]

/-- The CLOSE of `_close_position`. -/
def closeCall (positionId reason : String) (exitPrice : PyFloat) (candleOpenMs : ℤ) : Call :=
  x.call "CLOSE"
    [("position_id", .str positionId), ("symbol", .str x.symbol), ("reason", .str reason),
     ("exit_price", .float exitPrice),
     ("metadata", dumps (.obj
       [("ref_is_executable", .bool true), ("signal_candle_open_ms", .int candleOpenMs),
        ("source", .str strategyType)]))]

section Scan

variable (digest : Logical → String) (uuid5 : String → String) (env : ℕ → DispatchEnv)

/-- `_close_position`. -/
def closePosition (positionId reason : String) (exitPrice : PyFloat) (candleOpenMs : ℤ) :
    Method AdxState Unit := do
  emitSignal digest env (x.closeCall positionId reason exitPrice candleOpenMs)
  modifyState fun s => { s with positions := s.positions.erase positionId }

/-- `_open_if_allowed`. No position is open when it stores one. -/
def openIfAllowed (side : String) (entry : PyFloat) (candleOpenMs : ℤ) : Method AdxState Unit := do
  let s ← getState
  if (existingPosition s).isSome then pure ()
  else do
    let qty ← Coro.ofExcept (x.positionQty entry)
    if qty < .fin (1 / 1000) then pure ()
    else do
      let position : AdxPosition :=
        { positionId := uuid5 (x.positionName side candleOpenMs), side, entry, qty
          entryCandleOpenMs := candleOpenMs
          lastTrendDir := if side = "LONG" then uptrend else downtrend }
      emitSignal digest env (x.openCall position)
      modifyState fun s => { s with positions := s.positions.insertOrIgnore position }

/-- `_scan_15m`: a pivot of the ADX arms the exit of a position when it is lower than the one before. -/
def withPeak (peak : PyFloat) (p : AdxPosition) : AdxPosition :=
  let lower := p.previousAdxPeak.any fun previous => decide (peak < previous - x.minPeakDrop)
  { p with adxWeaknessArmed := p.adxWeaknessArmed || lower, previousAdxPeak := some peak }

/-- `_scan_15m`: the position after the pivots of the ADX. -/
def managed (closed : List Candle) (directions : List ℤ) (p : AdxPosition) : AdxPosition :=
  let adx := computeAdx x.diLength x.adxSmoothing closed
  match confirmedPivotHigh adx ((adx.length : ℤ) - 1) x.pivotLeft x.pivotRight with
  | none => p
  | some (pivotIndex, peak) =>
    -- the pivot and its confirmation belong to one cycle of the Supertrend
    if (directions.drop pivotIndex).any fun d => d ≠ directions.getLast?.getD 0 then p
    else x.withPeak peak p

lemma positionId_managed (closed : List Candle) (directions : List ℤ) (p : AdxPosition) :
    (x.managed closed directions p).positionId = p.positionId := by
  unfold managed
  dsimp only
  split
  · rfl
  · split <;> rfl

/-- `_scan_15m`: the close confirms the exit of an armed position. -/
def confirmed (closed : List Candle) (p : AdxPosition) : Bool :=
  let close := (closed.getLast?.map Candle.close).getD .nan
  let average := ((ema x.emaPeriod (closed.map Candle.close)).getLast?).getD .nan
  p.adxWeaknessArmed && (if p.side = "LONG" then decide (close ≤ average) else decide (average ≤ close))

/-- `position[…] = …` on the entry of a position. -/
def update (positionId : String) (f : AdxPosition → AdxPosition)
    (hf : ∀ p, (f p).positionId = p.positionId) (s : AdxState) : AdxState :=
  { s with positions := s.positions.modify positionId f hf }

/-- `_scan_15m`: a flip closes the position of the other side. -/
def closeOpposite (direction : ℤ) (newest : Candle) : Option AdxPosition → Method AdxState Unit
  | none => pure ()
  | some position =>
    if (position.side = "LONG" ∧ direction = downtrend) ∨
        (position.side = "SHORT" ∧ direction = uptrend) then
      x.closePosition digest env position.positionId "TREND_FLIP" newest.opening newest.time
    else pure ()

/-- `_scan_15m` after the checks, on a candle that is not the first one. -/
def scanCandle (newest : Candle) (closed : List Candle) : Method AdxState Unit := do
  let directions := supertrendDirections x.factor x.atrPeriod closed
  let direction := directions.getLast?.getD 0
  let s ← getState
  modifyState fun s => { s with last15mOpen := some newest.time }
  if direction ≠ s.lastTrendDir then do
    modifyState fun s => { s with lastTrendDir := direction }
    x.closeOpposite digest env direction newest (existingPosition s)
    x.openIfAllowed digest uuid5 env (if direction = downtrend then "SHORT" else "LONG") newest.opening
      newest.time
  else
    match existingPosition s with
    | none => pure ()
    | some position => do
      modifyState (update position.positionId (x.managed closed directions)
        (x.positionId_managed closed directions))
      if x.confirmed closed (x.managed closed directions position) then
        x.closePosition digest env position.positionId "ADX_4_2_EMA13_TP" newest.opening newest.time
      else pure ()

/-- `_scan_15m`: the first candle of a process takes the trend of the position, or of the candles. -/
def adopt (newest : Candle) (closed : List Candle) (s : AdxState) : AdxState :=
  { s with
    last15mOpen := some newest.time
    lastTrendDir := match existingPosition s with
      | some p => if p.side = "LONG" then uptrend else downtrend
      | none => (supertrendDirections x.factor x.atrPeriod closed).getLast?.getD 0 }

/-- `_scan_15m`; it raises where no candle is closed. -/
def scan15m (candles : List Candle) (candleOpenMs : ℤ) : Method AdxState Unit := do
  let series := x.series candles
  match series.getLast? with
  | none => pure ()
  | some newest =>
    if series.length < x.minM15Bars + 1 ∨ newest.time ≠ candleOpenMs then pure ()
    else if series.dropLast = [] then throw .noCandle
    else do
      let s ← getState
      if s.last15mOpen = none then modifyState (x.adopt newest series.dropLast)
      else x.scanCandle digest uuid5 env newest series.dropLast

/-- `scan`. -/
def scan (candles : List Candle) : Method AdxState Unit := do
  let s ← getState
  match s.pending15mOpen with
  | none => pure ()
  | some candleOpenMs => do
    x.scan15m digest uuid5 env candles candleOpenMs
    modifyState fun s => { s with pending15mOpen := none }

/-- A kline event, or a scan. -/
inductive Event
  | kline (ready : Bool) (latest : Option ℤ)
  | scan (candles : List Candle)

/-- One event; an exception leaves the state as it is at that point. -/
def step (w : AdxState × Outbox) : Event → AdxState × Outbox
  | .kline ready latest => (x.shouldScanAfterEvent ready latest w.1, w.2)
  | .scan candles => ((x.scan digest uuid5 env candles).run w).2

/-- A run of a process that starts with the positions it loads. -/
def run (d : Dispatcher) (loaded : Table AdxPosition.positionId) (events : List Event) :
    AdxState × Outbox :=
  events.foldl (x.step digest uuid5 env) ({ positions := loaded }, { dispatcher := d })

end Scan

end SupertrendAdx

end PaperTrade.Runner
