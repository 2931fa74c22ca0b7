import PaperTrade.Runner.BollingerLs

/-!
# `Vn30TcbsRunnerStrategy`

The alphas 19 and 21 on candles of a futures contract. Both decide on a side at each candle inside the
session; alpha 19 remembers a cut-loss level with the position, and at the end of the session every
position is closed. With `reverse` the strategy trades the other side: the decisions see and give the
side of the alpha, and it is swapped on the way in and on the way out.

`math.exp`, `numpy.percentile` and the offset of the time zone are parameters. The audit record of a
decision matters only for what `json.dumps` refuses to write.
-/

namespace PaperTrade.Runner

open PaperTrade.Runtime

/-- What the strategy takes from `math`, `numpy` and `zoneinfo`. The offset is that of an instant, both in
microseconds. -/
structure Vn30Library where
  exp : PyFloat → PyFloat
  percentile : List PyFloat → PyFloat → Except StrategyError PyFloat
  utcOffset : ℤ → ℤ

/-- `sum(l)`. -/
def pySum (l : List PyFloat) : PyFloat := l.foldl (· + ·) 0

/-- `max(l)` of values of which there is one. -/
def pyMax (l : List PyFloat) : PyFloat := l.tail.foldl PyFloat.max (l.headD 0)

/-- `min(l)` of values of which there is one. -/
def pyMin (l : List PyFloat) : PyFloat := l.tail.foldl PyFloat.min (l.headD 0)

/-- `math.floor(v / 10.0)`. -/
def floorTens : PyFloat → Except StrategyError PyFloat
  | .fin q => .ok (.fin ⌊q / 10⌋)
  | _ => .error .notFinite

/-! ## Alpha 19 -/

/-- `Alpha19Decision`. -/
structure Alpha19Decision where
  side : ℤ
  condition : ℤ
  cutLoss : Option PyFloat
  uo : Option PyFloat
  stochasticRank : Option PyFloat

/-- What the loop of `alpha19_decision` has collected. -/
structure Staged where
  uoValues : List PyFloat := []
  diffValues : List PyFloat := []
  latest : Option (PyFloat × PyFloat) := none

/-- The windows of alpha 19 and its threshold. -/
structure Alpha19 where
  window : ℕ := 60
  window1 : ℕ := 10
  window2 : ℕ := 40
  threshold : PyFloat := 90

namespace Alpha19

variable (a : Alpha19)

/-- The first index of the loop. -/
def firstIndex : ℕ := max a.window (max a.window1 a.window2)

/-- `bp`. -/
def buyingPressure (candles : List Candle) : List PyFloat :=
  List.zipWith (fun prev c => c.close - c.low.min prev.close) candles candles.tail

/-- `tr`. -/
def ranges (candles : List Candle) : List PyFloat :=
  List.zipWith (fun prev c => c.high.max prev.close - c.low.min prev.close) candles candles.tail

/-- `l[end - n : end]`. -/
def slice (l : List PyFloat) (stop n : ℕ) : List PyFloat := (l.take stop).drop (stop - n)

/-- One iteration of the loop, at `close_index`. -/
def stage (candles : List Candle) (st : Staged) (closeIndex : ℕ) : Staged :=
  let bp := buyingPressure candles
  let tr := ranges candles
  let tr1 := pySum (slice tr closeIndex a.window1)
  let tr2 := pySum (slice tr closeIndex a.window2)
  if tr1 ≤ 0 ∨ tr2 ≤ 0 then st
  else
    let bp1 := pySum (slice bp closeIndex a.window1)
    let bp2 := pySum (slice bp closeIndex a.window2)
    let uo := 100 * (6 * (bp1 / tr1) + bp2 / tr2) / 7
    let uoValues := st.uoValues ++ [uo]
    if uoValues.length ≤ a.window then { st with uoValues }
    else
      let uoWindow := lastValues uoValues a.window
      let spread := pyMax uoWindow - pyMin uoWindow
      if spread ≤ 0 then { st with uoValues }
      else
        let diff := (uo - pyMin uoWindow) / spread
        { uoValues, diffValues := st.diffValues ++ [diff]
          latest := if closeIndex = candles.length - 1 then some (uo, diff) else st.latest }

/-- The loop of `alpha19_decision`. -/
def staged (candles : List Candle) : Staged :=
  (List.range' a.firstIndex (candles.length - a.firstIndex)).foldl (a.stage candles) {}

/-- The condition and the side of `alpha19_decision`, and the cut-loss level before it trails. -/
def turn (lib : Vn30Library) (newest : Candle) (diffWindow : List PyFloat) (uo diff : PyFloat) (side : ℤ)
    (cutLoss : Option PyFloat) : Except StrategyError (ℤ × ℤ × Option PyFloat) := do
  let upper ← lib.percentile diffWindow a.threshold
  if upper ≤ diff ∧ 50 < uo ∧ side ≤ 0 then do
    let floor ← floorTens newest.low
    pure (1, 1, some ((floor + 1) * 10))
  else do
    let lower ← lib.percentile diffWindow (100 - a.threshold)
    if diff < lower ∧ uo < 50 ∧ 0 ≤ side then do
      let floor ← floorTens newest.high
      pure (-1, -1, some (floor * 10))
    else if 0 < side ∧ cutLoss.any fun level => level < newest.low then pure (0, 0, none)
    else if side < 0 ∧ cutLoss.any fun level => newest.high < level then pure (0, 0, none)
    else pure (0, side, cutLoss)

/-- The trailing of the cut-loss level. -/
def trail (newest : Candle) (side : ℤ) : Option PyFloat → Except StrategyError (Option PyFloat)
  | none => pure none
  | some level =>
    if 0 < side then do
      let floor ← floorTens newest.low
      pure (some ((floor * 10).max level))
    else if side < 0 then do
      let floor ← floorTens newest.high
      pure (some (((floor + 1) * 10).min level))
    else pure (some level)

/-- `alpha19_decision`. -/
def decision (lib : Vn30Library) (candles : List Candle) (currentSide : ℤ) (cutLoss : Option PyFloat) :
    Except StrategyError Alpha19Decision :=
  let st := a.staged candles
  if candles.length < a.firstIndex + a.window + a.window + 2 then
    .ok ⟨currentSide, 0, cutLoss, none, none⟩
  else match candles.getLast?, st.latest with
    | some newest, some (uo, diff) =>
      if st.diffValues.length ≤ a.window then .ok ⟨currentSide, 0, cutLoss, some uo, some diff⟩
      else do
        let (condition, side, level) ←
          a.turn lib newest (lastValues st.diffValues a.window) uo diff currentSide cutLoss
        let level ← trail newest side level
        pure ⟨side, condition, level, some uo, some diff⟩
    | _, _ => .ok ⟨currentSide, 0, cutLoss, none, none⟩

end Alpha19

/-! ## Alpha 21 -/

/-- The parameters of `Alpha21AlmaCross`. -/
structure Alpha21 where
  period : ℤ := 14
  sigma : PyFloat := 8
  thresholdBps : PyFloat := 25

/-- `side`, `condition` and `last_alma` after a bar. -/
structure AlmaBar where
  side : ℤ
  condition : ℤ
  lastAlma : Option PyFloat

namespace Alpha21

variable (a : Alpha21)

/-- `_weights`. -/
def weights (exp : PyFloat → PyFloat) : List PyFloat :=
  (List.range a.period.toNat).map fun i =>
    let distance := PyFloat.fin (i + 1) - .fin a.period / 2
    exp (-(distance * distance) / (2 * (a.sigma * a.sigma)))

/-- `Alpha21AlmaCross` with the candles before the newest one and a side, and `on_bar` of the newest. -/
def onBar (exp : PyFloat → PyFloat) (candles : List Candle) (side : ℤ) : Except StrategyError AlmaBar :=
  if a.period < 2 ∨ a.sigma ≤ 0 then .error .badArgument
  else
    let closes := candles.map Candle.close
    let close := closes.getLast?.getD 0
    if (closes.length : ℤ) < a.period then .ok ⟨side, 0, none⟩
    else if pySum (a.weights exp) = 0 then .error .zeroDivision
    else
      let window := lastValues closes a.period.toNat
      let alma := pySum (List.zipWith (· * ·) (a.weights exp) window) / pySum (a.weights exp)
      let band := a.thresholdBps / 10000
      let condition : ℤ :=
        if alma * (1 + band) < close then 1 else if close < alma * (1 - band) then -1 else 0
      let side :=
        if side ≠ 1 ∧ condition = 1 then 1 else if side ≠ -1 ∧ condition = -1 then -1 else side
      .ok ⟨side, condition, some alma⟩

end Alpha21

/-! ## The strategy -/

/-- `preset`, with the parameters of the alpha. -/
inductive Preset
  | alpha19 (a : Alpha19)
  | alpha21 (a : Alpha21)

def Preset.number : Preset → ℤ
  | alpha19 _ => 19
  | alpha21 _ => 21

/-- `TIMEFRAME_MS`. -/
def vn30TfMs : List (String × ℤ) := [("1m", 60000), ("5m", 300000), ("15m", 900000)]

/-- The parameters of the strategy; clocks are minutes of the day. -/
structure Vn30Tcbs where
  alphaId : String
  version : String
  preset : Preset
  symbol : String := "41I1G8000"
  exchange : String := "tcbs"
  timeframe : String := "5m"
  tfMs : ℤ := 300000
  known : (timeframe, tfMs) ∈ vn30TfMs := by decide
  qty : PyFloat := 1
  feePct : PyFloat := 0
  leverage : ℤ := 1
  reverse : Bool := false
  sessionStart : ℤ := 525
  forceFlatAt : ℤ := 865

/-- An entry of `_positions`. -/
structure Vn30Position where
  positionId : String
  side : Side
  entry : PyFloat
  cutLoss : Option PyFloat

/-- What the strategy keeps between two scans. -/
structure Vn30State where
  pendingCandleOpen : Option ℤ := none
  lastProcessedCandle : ℤ := 0
  positions : Table Vn30Position.positionId := .empty

/-- What one scan takes from outside: the snapshot of the cache, `state.ready` and `can_open_trades`. -/
structure Vn30Input where
  snapshot : List Candle
  ready : Bool := true
  canOpen : Bool := true

/-- What the two alphas give: the side, whether a condition was met, the cut-loss level to keep, and the
numbers of the audit record. -/
structure Vn30Decision where
  side : ℤ
  condition : ℤ
  cutLoss : Option PyFloat
  diagnostics : List (Option PyFloat)

namespace Vn30Tcbs

variable (x : Vn30Tcbs)

/-- `should_scan_after_event` for a kline of the symbol and timeframe of the strategy. -/
def shouldScanAfterEvent (latest : Option ℤ) (s : Vn30State) : Vn30State :=
  match latest with
  | none => s
  | some latest =>
    if latest ≤ s.lastProcessedCandle then s else { s with pendingCandleOpen := some latest }

/-- `_current_position`. -/
def currentPosition (s : Vn30State) : Option Vn30Position := s.positions.rows.head?

/-- The side of a position as a number. -/
def sideNumber : Side → ℤ
  | .long => 1
  | .short => -1

/-- `_current_side`. -/
def currentSide (s : Vn30State) : ℤ := ((currentPosition s).map fun p => sideNumber p.side).getD 0

/-- `_current_cut_loss`. -/
def currentCutLoss (s : Vn30State) : Option PyFloat := (currentPosition s).bind Vn30Position.cutLoss

/-- The close of a candle in the time zone of the session. -/
def localClose (lib : Vn30Library) (candleOpen : ℤ) : Except StrategyError DateTime :=
  let utc := (candleOpen + x.tfMs) * 1000 + 719162 * DateTime.day
  let wall := utc + lib.utcOffset utc
  if (0 ≤ utc ∧ utc < DateTime.wallEnd) ∧ 0 ≤ wall ∧ wall < DateTime.wallEnd then
    .ok ⟨wall, some (lib.utcOffset utc)⟩
  else .error .outOfRange

/-- `_must_force_flat`. -/
def mustForceFlat (close : DateTime) : Bool := x.forceFlatAt ≤ close.minuteOfDay

/-- `_inside_trade_session`. -/
def insideTradeSession (close : DateTime) : Bool :=
  close.weekday < 5 ∧ x.sessionStart ≤ close.minuteOfDay ∧ close.minuteOfDay < x.forceFlatAt

/-- The decision of the alpha, from the side that it would hold. -/
def decision (lib : Vn30Library) (snapshot : List Candle) (side : ℤ) (cutLoss : Option PyFloat) :
    Except StrategyError Vn30Decision :=
  match x.preset with
  | .alpha19 a => do
    let d ← a.decision lib snapshot side cutLoss
    pure ⟨d.side, d.condition, d.cutLoss, [d.uo, d.stochasticRank, d.cutLoss]⟩
  | .alpha21 a => do
    let bar ← a.onBar lib.exp snapshot side
    pure ⟨bar.side, bar.condition, none, [bar.lastAlma]⟩

/-- A side in front of the decision, or behind it. -/
def flipped (side : ℤ) : ℤ := if x.reverse then -side else side

/-- A call of `emit_signal`. -/
def call (type : String) (fields : Entries) : Call := ⟨⟨x.alphaId, x.version⟩, type, fields⟩

/-- The CLOSE of `_transition_to_side`. -/
def closeCall (positionId reason : String) (price : PyFloat) : Call := x.call "CLOSE"
  [("position_id", .str positionId), ("symbol", .str x.symbol), ("reason", .str reason),
   ("exit_price", .float price),
   ("metadata", dumps (.obj
     [("ref_is_executable", .bool false), ("source", .str "vn30_tcbs_bar")]))]

/-- `runtime`, its keys sorted. -/
def runtimeJson (cutLoss : Option PyFloat) : Json := .obj
  [("condition_semantics", .str (if x.preset.number = 21 then "per_bar_trigger" else "direct")),
   ("cut_loss", (cutLoss.map .float).getD .null), ("preset", .int x.preset.number)]

/-- The OPEN of `_transition_to_side`. -/
def openCall (p : Vn30Position) (candleOpen : ℤ) : Call := x.call "OPEN"
  [("position_id", .str p.positionId), ("symbol", .str x.symbol), ("side", .str p.side.name),
   ("entry", .float p.entry), ("qty", .float x.qty), ("leverage", .int x.leverage),
   ("exchange", .str x.exchange), ("fee_pct", .float x.feePct), ("tf", .str x.timeframe),
   ("signal_candle_open_ms", .int candleOpen),
   ("metadata", dumps (.obj
     [("source_artifact", .str "alphavn30.html"), ("strategy_runtime", x.runtimeJson p.cutLoss),
      ("strategy_runtime_version", .int 1)]))]

/-- The name of a position's UUID. -/
def positionName (side : Side) (candleOpen : ℤ) : String :=
  x.alphaId ++ "|" ++ x.version ++ "|" ++ toString candleOpen ++ "|" ++ side.name

def withCutLoss (cutLoss : Option PyFloat) (p : Vn30Position) : Vn30Position := { p with cutLoss }

lemma positionId_withCutLoss (cutLoss : Option PyFloat) (p : Vn30Position) :
    (withCutLoss cutLoss p).positionId = p.positionId := rfl

/-- `_set_current_cut_loss`. -/
def setCurrentCutLoss (cutLoss : Option PyFloat) (s : Vn30State) : Vn30State :=
  match currentPosition s with
  | none => s
  | some p => { s with
      positions :=
        s.positions.modify p.positionId (withCutLoss cutLoss) (positionId_withCutLoss cutLoss) }

variable (digest : Logical → String) (uuid5 : String → String) (lib : Vn30Library)
  (env : ℕ → DispatchEnv)

/-- The position that `_transition_to_side` stores. -/
def newPosition (side : Side) (entry : PyFloat) (candleOpen : ℤ) (cutLoss : Option PyFloat) :
    Vn30Position :=
  ⟨uuid5 (x.positionName side candleOpen), side, entry, cutLoss⟩

/-- The loop of `_transition_to_side` over the positions. -/
def closeAll (reason : String) (price : PyFloat) : List String → Method Vn30State Unit
  | [] => pure ()
  | id :: ids => do
    emitSignal digest env (x.closeCall id reason price)
    modifyState fun s => { s with positions := s.positions.erase id }
    closeAll reason price ids

/-- `_transition_to_side`. -/
def transitionToSide (desired : ℤ) (price : PyFloat) (candleOpen : ℤ) (reason : String)
    (cutLoss : Option PyFloat) (canOpen : Bool) : Method Vn30State Unit := do
  let s ← getState
  if desired = currentSide s then modifyState (setCurrentCutLoss cutLoss)
  else do
    x.closeAll digest env reason price (s.positions.rows.map Vn30Position.positionId)
    if desired = 0 ∨ canOpen = false then pure ()
    else do
      let side := if 0 < desired then Side.long else Side.short
      let position := x.newPosition uuid5 side price candleOpen cutLoss
      emitSignal digest env (x.openCall position candleOpen)
      modifyState fun s => { s with positions := s.positions.insertOrIgnore position }

/-- `scan` on the newest candle of the snapshot. -/
def scanCandle (input : Vn30Input) (c : Candle) : Method Vn30State Unit := do
  modifyState fun s => { s with lastProcessedCandle := c.time }
  let s ← getState
  let close ← Coro.ofExcept (x.localClose lib c.time)
  if x.mustForceFlat close then
    x.transitionToSide digest uuid5 env 0 c.close c.time "SESSION_FLAT" none input.canOpen
  else if input.ready = false ∨ x.insideTradeSession close = false then pure ()
  else do
    let d ← Coro.ofExcept
      (x.decision lib input.snapshot (x.flipped (currentSide s)) (currentCutLoss s))
    -- the audit record is written with `allow_nan=False`
    if d.diagnostics.any fun v => v.any fun v => v.isFinite = false then
      Coro.ofExcept (.error .badArgument)
    else
      x.transitionToSide digest uuid5 env (x.flipped d.side) c.close c.time
        (if d.condition ≠ 0 then "ALPHA_SIGNAL" else "ALPHA_HOLD_OR_EXIT") d.cutLoss input.canOpen

/-- `scan`. -/
def scan (input : Vn30Input) : Method Vn30State Unit := do
  let s ← getState
  match s.pendingCandleOpen with
  | none => pure ()
  | some candleOpen => do
    modifyState fun s => { s with pendingCandleOpen := none }
    match input.snapshot.getLast? with
    | none => pure ()
    | some c =>
      if c.time ≠ candleOpen then pure ()
      else x.scanCandle digest uuid5 lib env input c

/-- A kline event, or a scan. -/
inductive Event
  | kline (latest : Option ℤ)
  | scan (input : Vn30Input)

/-- One event; an exception leaves the state as it is at that point. -/
def step (w : Vn30State × Outbox) : Event → Vn30State × Outbox
  | .kline latest => (shouldScanAfterEvent latest w.1, w.2)
  | .scan input => ((x.scan digest uuid5 lib env input).run w).2

/-- A run of the strategy. -/
def run (w : Vn30State × Outbox) (events : List Event) : Vn30State × Outbox :=
  events.foldl (x.step digest uuid5 lib env) w

end Vn30Tcbs

end PaperTrade.Runner
