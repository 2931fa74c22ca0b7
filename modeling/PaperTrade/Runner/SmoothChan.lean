import PaperTrade.Runner.SuploXau

/-!
# `SmoothChanRunnerStrategy`

A Supertrend strategy on candles of 15m, 1h or 3h, the last ones built of complete triples of 1h
candles. Beside the flip of the direction a position has three exits: a stop, a chandelier whose
distance shrinks with the profit, and a return to the entry. All decisions are taken on the closed
candles; the open of the newest one is the price of the signal.

The Supertrend of this strategy has no direction, `0`, as long as its ATR has no seed.
-/

namespace PaperTrade.Runner

open PaperTrade.Runtime

/-! ## Indicators -/

/-- `_true_ranges`: the first one is NaN. -/
def trueRanges : List Candle → List PyFloat
  | [] => []
  | c :: rest => .nan :: List.zipWith (fun prev c => trueRange prev.close c) (c :: rest) rest

/-- `_wilder_atr` after its seed. -/
def wilderLoop (period : ℕ) : PyFloat → List PyFloat → List PyFloat
  | _, [] => []
  | prev, value :: rest =>
    let next := (prev * .fin (period - 1) + value) / .fin period
    next :: wilderLoop period next rest

/-- `_wilder_atr`: the seed is the mean of the finite ones among the first values. -/
def wilderAtr (values : List PyFloat) (period : ℕ) : List PyFloat :=
  if values.length < period then List.replicate values.length .nan
  else
    let seedValues := (values.take period).filter PyFloat.isFinite
    let seed :=
      if seedValues.isEmpty then .nan
      else seedValues.foldl (· + ·) 0 / .fin seedValues.length
    List.replicate (period - 1) .nan ++ seed :: wilderLoop period seed (values.drop period)

/-- `x == y`: NaN equals nothing. -/
def pyEq (a b : PyFloat) : Bool := decide (a = b) && decide (a ≠ .nan)

/-- What one iteration of `compute_supertrend_multi` hands to the next. -/
structure MultiBands where
  close : PyFloat
  upper : PyFloat
  lower : PyFloat
  supertrend : PyFloat
  direction : ℤ

/-- `compute_supertrend_multi`: `bu` and `bl` of a candle. -/
def basicBands (factor : PyFloat) (c : Candle) (atr : PyFloat) : PyFloat × PyFloat :=
  let hl2 := (c.high + c.low) / 2
  if atr.isFinite then (hl2 + factor * atr, hl2 - factor * atr) else (.nan, .nan)

/-- `compute_supertrend_multi`: the iteration `atr_period - 1`. -/
def MultiBands.first (factor : PyFloat) (c : Candle) (atr : PyFloat) : MultiBands :=
  let (upper, lower) := basicBands factor c atr
  if c.close ≤ upper then ⟨c.close, upper, lower, upper, 1⟩ else ⟨c.close, upper, lower, lower, -1⟩

/-- `compute_supertrend_multi`: a later iteration. -/
def MultiBands.next (factor : PyFloat) (prev : MultiBands) (c : Candle) (atr : PyFloat) :
    MultiBands :=
  let (bu, bl) := basicBands factor c atr
  let lower := if prev.lower < bl ∨ prev.close < prev.lower then bl else prev.lower
  let upper := if bu < prev.upper ∨ prev.upper < prev.close then bu else prev.upper
  if pyEq prev.supertrend prev.upper then
    if upper < c.close then ⟨c.close, upper, lower, lower, -1⟩ else ⟨c.close, upper, lower, upper, 1⟩
  else
    if c.close < lower then ⟨c.close, upper, lower, upper, 1⟩ else ⟨c.close, upper, lower, lower, -1⟩

def multiLoop (factor : PyFloat) : MultiBands → List Candle → List PyFloat → List ℤ
  | prev, c :: candles, atr :: atrs =>
    let b := prev.next factor c atr
    b.direction :: multiLoop factor b candles atrs
  | _, _, _ => []

/-- `compute_supertrend_multi`: the ATR. -/
def multiAtr (atrPeriod : ℕ) (candles : List Candle) : List PyFloat :=
  wilderAtr (trueRanges candles) atrPeriod

/-- `compute_supertrend_multi`: the directions. -/
def multiDirections (factor : PyFloat) (atrPeriod : ℕ) (candles : List Candle) : List ℤ :=
  let early := List.replicate (min (atrPeriod - 1) candles.length) 0
  match candles.drop (atrPeriod - 1), (multiAtr atrPeriod candles).drop (atrPeriod - 1) with
  | c :: rest, atr :: atrs =>
    let b := MultiBands.first factor c atr
    early ++ b.direction :: multiLoop factor b rest atrs
  | _, _ => early

/-! ## Bars of several candles -/

/-- The candles by their times; of two with one time the later one counts. -/
def candlesByOpen (candles : List Candle) : Dict ℤ Candle :=
  candles.foldl (fun byOpen c => byOpen.set c.time c) .empty

/-- The candles of a longer timeframe, each from its parts where all of them are there. -/
def combinedBars (build : Dict ℤ Candle → ℤ → Option Candle) (candles : List Candle) : List Candle :=
  let byOpen := candlesByOpen candles
  (byOpen.keys.insertionSort (· ≤ ·)).filterMap (build byOpen)

/-! ## The strategy -/

/-- `tf`. -/
inductive SmoothTf
  | m15
  | h1
  | h3
deriving DecidableEq

def SmoothTf.name : SmoothTf → String
  | .m15 => "15m"
  | .h1 => "1h"
  | .h3 => "3h"

/-- The parameters of the strategy; the constructor refuses a period of zero. -/
structure SmoothChan where
  alphaId : String
  version : String
  tf : SmoothTf := .h1
  factor : PyFloat := .fin (5 / 2)
  atrPeriod : ℕ := 10
  atrPeriod_pos : 0 < atrPeriod := by decide
  chanStart : PyFloat := 3
  chanMin : PyFloat := 2
  scalePct : PyFloat := .fin (15 / 100)
  bePct : PyFloat := .fin (2 / 100)
  slK : PyFloat := 0
  flipOnly : Bool := false
  symbol : String := "PAXGUSDT"
  exchange : String := "binance"
  capital : PyFloat := 10000
  leverage : PyFloat := 10
  positionFraction : PyFloat := 1
  feePct : PyFloat := .fin (5 / 10000)
  minBars : ℤ := if tf = .h1 then 80 else 30
  /-- `timestamp_semantics` is `close`. -/
  closeTimes : Bool := false

/-- An entry of `_positions`; a loaded one may lack what its exits read. -/
structure SmoothPosition where
  positionId : String
  side : String
  entry : PyFloat
  qty : PyFloat
  entryEffOpenMs : ℤ
  entryAtr : Option PyFloat
  wm : Option PyFloat
  be : Bool := false
  lastDir : ℤ

/-- What the strategy keeps between two scans. -/
structure SmoothState where
  lastDir : ℤ := 0
  lastEffOpen : Option ℤ := none
  pendingEffOpen : Option ℤ := none
  positions : Table SmoothPosition.positionId := .empty

namespace SmoothChan

def h1Ms : ℤ := 60 * 60 * 1000
def h3Ms : ℤ := 3 * h1Ms

variable (x : SmoothChan)

/-- `source_ms`. -/
def sourceMs : ℤ := if x.tf = .m15 then SuploXau.m15Ms else h1Ms

/-- `_bar_open_ms`, of a candle of `source_tf`. -/
def barOpenMs (value : ℤ) : ℤ :=
  let valueMs := SuploXau.timestampMs value
  if x.closeTimes then (if valueMs % 1000 = 999 then valueMs + 1 else valueMs) - x.sourceMs
  else valueMs

/-- `should_scan_after_event`: the candle that an event completes. -/
def effOpen? (latestOpen : ℤ) : Option ℤ :=
  if x.tf = .h3 then
    if latestOpen % h3Ms ≠ 2 * h1Ms then none else some (latestOpen - 2 * h1Ms)
  else some latestOpen

/-- `should_scan_after_event` for a kline of the symbol and `source_tf`. -/
def shouldScanAfterEvent (ready : Bool) (latest : Option ℤ) (s : SmoothState) : SmoothState :=
  match ready, latest with
  | true, some latest =>
    match x.effOpen? (x.barOpenMs latest) with
    | none => s
    | some effOpen =>
      if s.lastEffOpen.any fun last => effOpen ≤ last then s
      else { s with pendingEffOpen := some effOpen }
  | _, _ => s

/-- `_eff_series`: the 3h candle from `start` on. -/
def h3Bar (byOpen : Dict ℤ Candle) (start : ℤ) : Option Candle :=
  if start % h3Ms ≠ 0 then none
  else match byOpen.get? start, byOpen.get? (start + h1Ms), byOpen.get? (start + 2 * h1Ms) with
    | some first, some second, some third =>
      some ⟨first.opening, (first.high.max second.high).max third.high,
        (first.low.min second.low).min third.low, third.close, start⟩
    | _, _, _ => none

/-- `_eff_series`. -/
def effSeries (candles : List Candle) : List Candle :=
  let source := candles.map fun c => { c with time := x.barOpenMs c.time }
  if x.tf = .h3 then combinedBars h3Bar source else source

/-- `_existing_position`. -/
def existingPosition (s : SmoothState) : Option SmoothPosition := s.positions.rows.head?

/-- The name of a position's UUID. -/
def positionName (side : String) (effOpenMs : ℤ) : String :=
  x.alphaId ++ "|" ++ x.version ++ "|" ++ x.tf.name ++ "|" ++ toString effOpenMs ++ "|" ++ side

/-- The quantity of `_open_if_allowed`. -/
def positionQty (entry : PyFloat) : Except StrategyError PyFloat :=
  if entry.truthy = false then .error .zeroDivision
  else match x.capital * x.positionFraction * x.leverage / entry * 1000 with
    | .fin q => .ok (.fin (⌊q⌋ / 1000))
    | _ => .error .notFinite

def jsonOpt (v : Option PyFloat) : Json := (v.map .float).getD .null

/-- A call of `emit_signal`. -/
def call (type : String) (fields : Entries) : Call := ⟨⟨x.alphaId, x.version⟩, type, fields⟩

/-- `strategy_type` and `signal_source`. -/
def strategyType : String := "smooth_chan"

/-- The position dict as JSON, its keys sorted. -/
def runtimeJson (p : SmoothPosition) : Json := .obj
  [("alpha_id", .str x.alphaId), ("be", .bool p.be), ("entry", .float p.entry),
   ("entry_atr", jsonOpt p.entryAtr), ("entry_eff_open_ms", .int p.entryEffOpenMs),
   ("last_dir", .int p.lastDir), ("position_id", .str p.positionId), ("qty", .float p.qty),
   ("side", .str p.side), ("sl", .null), ("symbol", .str x.symbol), ("tp", .null),
   ("version", .str x.version), ("wm", jsonOpt p.wm)]

/-- The OPEN of `_open_if_allowed`. -/
def openCall (p : SmoothPosition) : Call := x.call "OPEN"
  [("position_id", .str p.positionId), ("symbol", .str x.symbol), ("side", .str p.side),
   ("entry", .float p.entry), ("qty", .float p.qty), ("tp", .null), ("sl", .null),
   ("leverage", .float x.leverage), ("exchange", .str x.exchange), ("fee_pct", .float x.feePct),
   ("tf", .str x.tf.name), ("signal_candle_open_ms", .int p.entryEffOpenMs),
   ("metadata", dumps (.obj
     [("allow_duplicate_position", .bool false), ("be_pct", .float x.bePct),
      ("chan_min", .float x.chanMin), ("chan_start", .float x.chanStart), ("factor", .float x.factor),
      ("scale_pct", .float x.scalePct), ("strategy_runtime", x.runtimeJson p),
      ("strategy_type", .str strategyType), ("tf", .str x.tf.name)]))]

/-- The CLOSE of `_close_position`. -/
def closeCall (positionId reason : String) (exitPrice : PyFloat) (effOpenMs : ℤ) : Call :=
  x.call "CLOSE"
    [("position_id", .str positionId), ("symbol", .str x.symbol), ("reason", .str reason),
     ("exit_price", .float exitPrice),
     ("metadata", dumps (.obj
       [("ref_is_executable", .bool true), ("signal_candle_open_ms", .int effOpenMs),
        ("source", .str strategyType)]))]

/-! ## The exits -/

/-- `float(position.get(key) or default)`. -/
def orDefault (v : Option PyFloat) (default : PyFloat) : PyFloat :=
  (v.filter PyFloat.truthy).getD default

/-- `entry_atr` of `_manage_exits`. -/
def entryAtrOf (p : SmoothPosition) : PyFloat := orDefault p.entryAtr 0

/-- `wm` of `_manage_exits`. -/
def wmOf (p : SmoothPosition) : PyFloat := orDefault p.wm p.entry

/-- `chan_mult` of `_manage_exits`. -/
def chanMult (p : SmoothPosition) : PyFloat :=
  let wm := wmOf p
  let profitPct :=
    if p.entry.truthy then
      (if p.side = "LONG" then wm - p.entry else p.entry - wm) / p.entry
    else 0
  let ratio := if 0 < x.scalePct then PyFloat.min 1 (PyFloat.max 0 (profitPct / x.scalePct)) else 0
  x.chanStart - (x.chanStart - x.chanMin) * ratio

/-- `_manage_exits`: the stop. -/
def stopHit (p : SmoothPosition) (c : Candle) : Bool :=
  let entryAtr := entryAtrOf p
  decide (0 < x.slK) && decide (0 < entryAtr) &&
    ((decide (p.side = "LONG") && decide (c.low ≤ p.entry - x.slK * entryAtr)) ||
      (decide (p.side = "SHORT") && decide (p.entry + x.slK * entryAtr ≤ c.high)))

/-- `_manage_exits`: the chandelier. -/
def chandelierHit (p : SmoothPosition) (c : Candle) : Bool :=
  let entryAtr := entryAtrOf p
  !x.flipOnly && decide (0 < entryAtr) &&
    (if p.side = "LONG" then
      let cs := wmOf p - x.chanMult p * entryAtr
      decide (p.entry < cs) && decide (c.low ≤ cs)
    else
      let cs := wmOf p + x.chanMult p * entryAtr
      decide (cs < p.entry) && decide (cs ≤ c.high))

/-- `_manage_exits`: the return to the entry is an exit. -/
def breakevenOn : Bool := decide (0 < x.bePct) && !x.flipOnly

/-- `_manage_exits`: the return to the entry. -/
def breakevenHit (p : SmoothPosition) (c : Candle) : Bool :=
  x.breakevenOn && p.be &&
    (if p.side = "LONG" then decide (c.low ≤ p.entry) else decide (p.entry ≤ c.high))

/-- `_manage_exits`: a gain arms the return to the entry. -/
def withBreakeven (c : Candle) (p : SmoothPosition) : SmoothPosition :=
  let gained :=
    if p.side = "LONG" then decide (p.entry * (1 + x.bePct) < c.high)
    else decide (c.low < p.entry * (1 - x.bePct))
  { p with be := p.be || (x.breakevenOn && gained) }

/-- `_manage_exits`: the watermark. -/
def withWatermark (c : Candle) (p : SmoothPosition) : SmoothPosition :=
  if p.side = "LONG" ∧ wmOf p < c.high then { p with wm := some c.high }
  else if p.side = "SHORT" ∧ c.low < wmOf p then { p with wm := some c.low }
  else p

lemma positionId_withWatermark (c : Candle) (p : SmoothPosition) :
    (withWatermark c p).positionId = p.positionId := by
  unfold withWatermark
  split
  · rfl
  · split <;> rfl

/-- The exit that `_manage_exits` takes. -/
def exitReason (p : SmoothPosition) (c : Candle) : Option String :=
  if x.stopHit p c then some "SL"
  else if x.chandelierHit p c then some "CH"
  else if x.breakevenHit p c then some "BE"
  else none

/-- `position[…] = …` on the entry of a position. -/
def update (positionId : String) (f : SmoothPosition → SmoothPosition)
    (hf : ∀ p, (f p).positionId = p.positionId) (s : SmoothState) : SmoothState :=
  { s with positions := s.positions.modify positionId f hf }

/-! ## The scan -/

section Scan

variable (digest : Logical → String) (uuid5 : String → String) (env : ℕ → DispatchEnv)

/-- `_close_position`. -/
def closePosition (positionId reason : String) (exitPrice : PyFloat) (effOpenMs : ℤ) :
    Method SmoothState Unit := do
  emitSignal digest env (x.closeCall positionId reason exitPrice effOpenMs)
  modifyState fun s => { s with positions := s.positions.erase positionId }

/-- The position that `_open_if_allowed` stores. -/
def newPosition (positionId side : String) (entry qty : PyFloat) (effOpenMs : ℤ)
    (entryAtr : PyFloat) : SmoothPosition where
  positionId := positionId
  side := side
  entry := entry
  qty := qty
  entryEffOpenMs := effOpenMs
  entryAtr := some entryAtr
  wm := some entry
  lastDir := if side = "LONG" then uptrend else downtrend

/-- `_open_if_allowed`. No position is open when it stores one. -/
def openIfAllowed (side : String) (entry : PyFloat) (effOpenMs : ℤ) (entryAtr : PyFloat) :
    Method SmoothState Unit := do
  let s ← getState
  if (existingPosition s).isSome then pure ()
  else if entryAtr.isFinite = false ∨ entryAtr ≤ 0 then pure ()
  else do
    let qty ← Coro.ofExcept (x.positionQty entry)
    if qty < .fin (1 / 1000) then pure ()
    else do
      let position :=
        newPosition (uuid5 (x.positionName side effOpenMs)) side entry qty effOpenMs entryAtr
      emitSignal digest env (x.openCall position)
      modifyState fun s => { s with positions := s.positions.insertOrIgnore position }

/-- `_manage_exits`, on the last closed candle; it returns whether it has closed the position. -/
def manageExits (position : SmoothPosition) (c : Candle) (price : PyFloat) :
    Method SmoothState Bool := do
  if x.stopHit position c then do
    x.closePosition digest env position.positionId "SL" price c.time
    pure true
  else if x.chandelierHit position c then do
    x.closePosition digest env position.positionId "CH" price c.time
    pure true
  else do
    modifyState (update position.positionId (x.withBreakeven c) fun _ => rfl)
    if x.breakevenHit position c then do
      x.closePosition digest env position.positionId "BE" price c.time
      pure true
    else do
      modifyState (update position.positionId (withWatermark c) (positionId_withWatermark c))
      pure false

/-- `_scan_eff`: the exits of the position, if there is one. -/
def manage (c : Candle) (price : PyFloat) : Method SmoothState Unit := do
  let s ← getState
  match existingPosition s with
  | none => pure ()
  | some position => do
    let _ ← x.manageExits digest env position c price
    pure ()

/-- `_scan_eff`: a flip closes the position of the other side. -/
def closeOpposite (direction : ℤ) (newest : Candle) : Method SmoothState Unit := do
  let s ← getState
  match existingPosition s with
  | none => pure ()
  | some position =>
    if (position.side = "LONG" ∧ direction = downtrend) ∨
        (position.side = "SHORT" ∧ direction = uptrend) then
      x.closePosition digest env position.positionId "TREND_FLIP" newest.opening newest.time
    else pure ()

/-- `_scan_eff` from the comparison of the directions on. -/
def flip (newest : Candle) (direction : ℤ) (atr : PyFloat) : Method SmoothState Unit := do
  let s ← getState
  if direction = s.lastDir then pure ()
  else do
    modifyState fun s => { s with lastDir := direction }
    x.closeOpposite digest env direction newest
    x.openIfAllowed digest uuid5 env (if direction = downtrend then "SHORT" else "LONG")
      newest.opening newest.time atr

/-- `_scan_eff`: the first candle of a process; an uptrend is taken where there is no direction. -/
def adopt (newest : Candle) (direction : ℤ) (s : SmoothState) : SmoothState :=
  { s with
    lastEffOpen := some newest.time
    lastDir := match existingPosition s with
      | some p => if p.side = "LONG" then uptrend else downtrend
      | none => if direction = 0 then uptrend else direction }

/-- The last direction of closed candles. -/
def direction (closed : List Candle) : ℤ :=
  (multiDirections x.factor x.atrPeriod closed).getLast?.getD 0

/-- The last ATR of closed candles. -/
def atr (closed : List Candle) : PyFloat := (multiAtr x.atrPeriod closed).getLast?.getD .nan

/-- `_scan_eff`; it raises where no candle is closed. -/
def scanEff (candles : List Candle) (effOpenMs : ℤ) : Method SmoothState Unit := do
  let series := x.effSeries candles
  match series.getLast?, series.dropLast.getLast? with
  | some newest, some last =>
    if (series.length : ℤ) < x.minBars + 1 ∨ newest.time ≠ effOpenMs then pure ()
    else do
      let direction := x.direction series.dropLast
      let s ← getState
      if s.lastEffOpen = none then modifyState (adopt newest direction)
      else do
        modifyState fun s => { s with lastEffOpen := some newest.time }
        x.manage digest env last newest.opening
        x.flip digest uuid5 env newest direction (x.atr series.dropLast)
  | some newest, none =>
    if (series.length : ℤ) < x.minBars + 1 ∨ newest.time ≠ effOpenMs then pure ()
    else throw .noCandle
  | none, _ => pure ()

/-- `scan`. -/
def scan (candles : List Candle) : Method SmoothState Unit := do
  let s ← getState
  match s.pendingEffOpen with
  | none => pure ()
  | some effOpenMs => do
    x.scanEff digest uuid5 env candles effOpenMs
    modifyState fun s => { s with pendingEffOpen := none }

/-- A kline event, a scan, or a new process with the positions that it loads. -/
inductive Event
  | kline (ready : Bool) (latest : Option ℤ)
  | scan (candles : List Candle)
  | restart (loaded : Table SmoothPosition.positionId) (ok : Bool)

/-- One event; an exception leaves the state as it is at that point. -/
def step (w : SmoothState × Outbox) : Event → SmoothState × Outbox
  | .kline ready latest => (x.shouldScanAfterEvent ready latest w.1, w.2)
  | .scan candles => ((x.scan digest uuid5 env candles).run w).2
  | .restart loaded ok => ({ positions := loaded }, w.2.restart ok)

/-- A run of the strategy. -/
def run (w : SmoothState × Outbox) (events : List Event) : SmoothState × Outbox :=
  events.foldl (x.step digest uuid5 env) w

end Scan

end SmoothChan

end PaperTrade.Runner
