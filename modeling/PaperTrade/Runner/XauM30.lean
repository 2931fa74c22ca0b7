import PaperTrade.Runtime.ExpAverage
import PaperTrade.Runner.Acts
import PaperTrade.Runner.BollingerLs
import PaperTrade.Runner.ExactCandle

/-!
# `XauM30RunnerStrategy`

One strategy with six presets, on M30 candles that it builds of adjacent M15 candles. An entry needs the
preset's own pattern of averages, RSI and ATR, and for all presets but one the trend of the H4 candles. A
position has a stop and a target, which price alerts watch; presets 4, 5 and 6 also close it when the price
crosses the slow average, and move its stop to the entry once.

Prices are rational numbers; a division by zero raises. The session's time zone is a parameter: the weekday
and the hour of an instant.
-/

namespace PaperTrade.Runner

open PaperTrade.Runtime

/-! ## Presets -/

/-- `Preset`. -/
structure XauPreset where
  number : ℕ
  maxPositions : ℕ
  rr : ℚ
  pureAtrStop : Bool
  sessionGated : Bool
  macroGated : Bool
  longOnly : Bool := false
  sessionStart : ℕ := 7
  sessionEnd : ℕ := 18
deriving DecidableEq

/-- `PRESETS`. -/
def xauPresets : List XauPreset :=
  [{ number := 4, maxPositions := 3, rr := 2, pureAtrStop := false, sessionGated := true, macroGated := true },
   { number := 5, maxPositions := 1, rr := 9 / 5, pureAtrStop := false, sessionGated := true,
     macroGated := true },
   { number := 6, maxPositions := 1, rr := 2, pureAtrStop := false, sessionGated := true, macroGated := true },
   { number := 10, maxPositions := 2, rr := 5 / 2, pureAtrStop := true, sessionGated := false,
     macroGated := false, longOnly := true },
   { number := 11, maxPositions := 1, rr := 11 / 5, pureAtrStop := true, sessionGated := true,
     macroGated := true, sessionEnd := 15 },
   { number := 12, maxPositions := 1, rr := 13 / 5, pureAtrStop := true, sessionGated := true,
     macroGated := true, sessionEnd := 15 }]

/-- The parameters of the strategy; the constructor refuses a preset that is not in the table. -/
structure XauM30 where
  alphaId : String
  version : String
  preset : XauPreset
  known : preset ∈ xauPresets
  symbol : String := "XAUUSDT"
  exchange : String := "binance"
  capital : ℚ := 10000
  riskPct : ℚ := 1 / 100
  feePct : ℚ := 5 / 10000
  leverage : ℚ := 10
  /-- `timestamp_semantics` is `close`. -/
  closeTimes : Bool := false
  tradeWeekends : Bool := !preset.sessionGated

/-- An entry of `_positions`. -/
structure XauPosition where
  positionId : String
  side : Side
  entry : ℚ
  qty : ℚ
  tp : ℚ
  sl : ℚ
  initialSl : ℚ
  breakeven : Bool := false
deriving DecidableEq

/-- What the strategy keeps between two scans. -/
structure XauState where
  lastM30Open : Option ℤ := none
  pendingM30Open : Option ℤ := none
  positions : Dict String XauPosition := .empty

namespace XauM30

/-! ## Indicators -/

/-- `a / b`. -/
def pyDiv (a b : ℚ) : Except StrategyError ℚ := if b = 0 then .error .zeroDivision else .ok (a / b)

def opens (s : List ExactCandle) : List ℚ := s.map ExactCandle.opening

def highs (s : List ExactCandle) : List ℚ := s.map ExactCandle.high

def lows (s : List ExactCandle) : List ℚ := s.map ExactCandle.low

def closes (s : List ExactCandle) : List ℚ := s.map ExactCandle.close

/-- `values[i]`, on a series that is long enough. -/
def val (values : List ℚ) (i : ℕ) : ℚ := values.getD i 0

/-- `values[a:b]`. -/
def slice (values : List ℚ) (a b : ℕ) : List ℚ := (values.take b).drop a

/-- `min(values)` of a list that is not empty. -/
def least : List ℚ → ℚ
  | [] => 0
  | v :: rest => rest.foldl min v

/-- `max(values)` of a list that is not empty. -/
def greatest : List ℚ → ℚ
  | [] => 0
  | v :: rest => rest.foldl max v

/-- `median(values)`. -/
def median (values : List ℚ) : Except StrategyError ℚ :=
  if values = [] then .error .badArgument else .ok (middle values)

/-- `_ema`. -/
def ema (values : List ℚ) (period : ℕ) : List ℚ := expAverages (2 / ((period : ℚ) + 1)) values

/-- `_rsi`: the values of `part` of the differences, after a zero. -/
def moves (part : ℚ → ℚ) (values : List ℚ) : List ℚ :=
  0 :: List.zipWith (fun previous current => max (part (current - previous)) 0) values values.tail

def gains : List ℚ → List ℚ := moves id

def losses : List ℚ → List ℚ := moves fun delta => -delta

/-- `_rsi`: the value for two averages. -/
def rsiOf (avgGain avgLoss : ℚ) : Except StrategyError ℚ :=
  if avgLoss = 0 ∧ 0 < avgGain then .ok 100
  else if avgLoss = 0 then .ok 50
  else do
    let ratio ← pyDiv avgGain avgLoss
    let share ← pyDiv 100 (1 + ratio)
    pure (100 - share)

/-- The values of `rsiOf`, up to the first one that raises. -/
def rsiLoop : List ℚ → List ℚ → Except StrategyError (List ℚ)
  | avgGain :: avgGains, avgLoss :: avgLosses => do
    let v ← rsiOf avgGain avgLoss
    let rest ← rsiLoop avgGains avgLosses
    pure (v :: rest)
  | _, _ => .ok []

/-- `_rsi`. -/
def rsi (values : List ℚ) (period : ℚ := 14) : Except StrategyError (List ℚ) :=
  if values.length < 2 then .ok (List.replicate values.length 50)
  else do
    let alpha ← pyDiv 1 period
    rsiLoop (expFrom alpha 0 (gains values)) (expFrom alpha 0 (losses values))

/-- `_atr`: the range of a candle after another one. -/
def rangeAfter (previous c : ExactCandle) : ℚ :=
  max (max (c.high - c.low) |c.high - previous.close|) |c.low - previous.close|

/-- `_atr`: the ranges. -/
def ranges : List ExactCandle → List ℚ
  | [] => []
  | c :: rest => (c.high - c.low) :: List.zipWith rangeAfter (c :: rest) rest

/-- `_atr`. -/
def atr (s : List ExactCandle) (period : ℚ := 14) : Except StrategyError (List ℚ) :=
  if s = [] then .ok []
  else do
    let alpha ← pyDiv 1 period
    pure (expAverages alpha (ranges s))

/-! ## Candles -/

def m15Ms : ℤ := 15 * 60 * 1000
def m30Ms : ℤ := 30 * 60 * 1000
def h4Ms : ℤ := 4 * 60 * 60 * 1000

variable (x : XauM30)

/-- `_bar_open_ms`. -/
def barOpenMs (value timeframeMs : ℤ) : ℤ :=
  let valueMs := SuploXau.timestampMs value
  if x.closeTimes then (if valueMs % 1000 = 999 then valueMs + 1 else valueMs) - timeframeMs else valueMs

/-- `_m30_series`: the M30 candle from `start` on. -/
def m30Bar (bars : Dict ℤ ExactCandle) (start : ℤ) : Option ExactCandle :=
  if start % m30Ms ≠ 0 then none
  else match bars.get? start, bars.get? (start + m15Ms) with
    | some first, some second =>
      some ⟨first.opening, max first.high second.high, min first.low second.low, second.close, start⟩
    | _, _ => none

/-- `_m30_series`. -/
def m30Series (m15 : List ExactCandle) : List ExactCandle :=
  let bars : Dict ℤ ExactCandle :=
    m15.foldl (fun bars c => bars.set (x.barOpenMs c.time m15Ms) c) .empty
  (bars.keys.insertionSort (· ≤ ·)).filterMap (m30Bar bars)

/-- `_completed_h4`. -/
def completedH4 (h4 : List ExactCandle) (m30Close : ℤ) : List ExactCandle :=
  (h4.map fun c => { c with time := x.barOpenMs c.time h4Ms }).filter fun c => c.time + h4Ms ≤ m30Close

/-! ## Entries -/

/-- `_macro_side`. -/
def macroSide (h4 : List ExactCandle) : Option Side :=
  let n := h4.length
  let e9 := ema (closes h4) 9
  let e21 := ema (closes h4) 21
  let e50 := ema (closes h4) 50
  if n < 54 then none
  else if (val e21 (n - 1) < val e9 (n - 1) ∧ val e50 (n - 1) < val e21 (n - 1)) ∧
      val e50 (n - 1) < val (closes h4) (n - 1) ∧ val e50 (n - 4) < val e50 (n - 1) then some .long
  else if (val e9 (n - 1) < val e21 (n - 1) ∧ val e21 (n - 1) < val e50 (n - 1)) ∧
      val (closes h4) (n - 1) < val e50 (n - 1) ∧ val e50 (n - 1) < val e50 (n - 4) then some .short
  else none

/-- The lists that `_matches` reads. -/
structure Indicators where
  e9 : List ℚ
  e21 : List ℚ
  e50 : List ℚ
  rsi : List ℚ
  atr : List ℚ

section Matches

variable (s : List ExactCandle) (v : Indicators)

/-- `_matches`: `trend` before the adjustment to the preset. -/
def aligned (i : ℕ) : Side → Bool
  | .long => decide (((val v.e21 i < val v.e9 i ∧ val v.e50 i < val v.e21 i)) ∧
      val v.e50 i < val (closes s) i)
  | .short => decide (((val v.e9 i < val v.e21 i ∧ val v.e21 i < val v.e50 i)) ∧
      val (closes s) i < val v.e50 i)

/-- `_matches`: both slow averages move the way of the side. -/
def slopes (i : ℕ) : Side → Bool
  | .long => decide (val v.e21 (i - 3) < val v.e21 i ∧ val v.e50 (i - 3) < val v.e50 i)
  | .short => decide (val v.e21 i < val v.e21 (i - 3) ∧ val v.e50 i < val v.e50 (i - 3))

/-- `_matches`: the slowest average does. -/
def slope50 (i : ℕ) : Side → Bool
  | .long => decide (val v.e50 (i - 3) < val v.e50 i)
  | .short => decide (val v.e50 i < val v.e50 (i - 3))

/-- `_matches`: `trend`. -/
def trend (i : ℕ) (side : Side) : Bool :=
  if x.preset.number = 5 ∨ x.preset.number = 6 then aligned s v i side && slopes v i side
  else if x.preset.number = 4 ∨ x.preset.number = 6 ∨ x.preset.number = 10 then
    aligned s v i side && slope50 v i side
  else aligned s v i side

/-- `_matches` of preset 6: the close is beyond the candle before, and beyond the fast average. -/
def breaksBar (i : ℕ) : Side → Bool
  | .long => decide (val (highs s) (i - 1) < val (closes s) i ∧ val v.e9 i < val (closes s) i)
  | .short => decide (val (closes s) i < val (lows s) (i - 1) ∧ val (closes s) i < val v.e9 i)

/-- `_matches` of preset 12: `breakout`. -/
def breakout (i : ℕ) : Side → Bool
  | .long => decide (greatest (slice (highs s) (i - 20) i) < val (closes s) i)
  | .short => decide (val (closes s) i < least (slice (lows s) (i - 20) i))

/-- `_matches` of preset 12: `impulse`. -/
def impulse (i : ℕ) : Bool := decide (3 / 4 * val v.atr i ≤ val (highs s) i - val (lows s) i)

/-- `_matches` of preset 12: `direction`. -/
def bodied (i : ℕ) : Side → Bool
  | .long => decide (val (opens s) i < val (closes s) i)
  | .short => decide (val (closes s) i < val (opens s) i)

/-- `_matches` of preset 12: `trend12`. -/
def trend12 (i : ℕ) : Side → Bool
  | .long => decide (val v.e50 i < val v.e21 i ∧ val v.e21 (i - 3) < val v.e21 i ∧
      val v.e50 (i - 3) < val v.e50 i)
  | .short => decide (val v.e21 i < val v.e50 i ∧ val v.e21 i < val v.e21 (i - 3) ∧
      val v.e50 i < val v.e50 (i - 3))

/-- `_matches` of preset 11: `touched`. -/
def touched11 (i : ℕ) : Side → Bool
  | .long => decide (val (lows s) i ≤ val v.e21 i ∨ val (lows s) (i - 1) ≤ val v.e21 (i - 1))
  | .short => decide (val v.e21 i ≤ val (highs s) i ∨ val v.e21 (i - 1) ≤ val (highs s) (i - 1))

/-- `_matches` of preset 11: `reclaim`. -/
def reclaim (i : ℕ) : Side → Bool
  | .long => decide (val v.e9 i < val (closes s) i ∧ val (highs s) (i - 1) < val (closes s) i)
  | .short => decide (val (closes s) i < val v.e9 i ∧ val (closes s) i < val (lows s) (i - 1))

/-- `_matches` of preset 11: `rsi_ok`. -/
def rsiOk (i : ℕ) : Side → Bool
  | .long => decide (42 ≤ val v.rsi i ∧ val v.rsi i ≤ 63)
  | .short => decide (37 ≤ val v.rsi i ∧ val v.rsi i ≤ 58)

/-- `_matches` of preset 11: `trend11`. -/
def trend11 (i : ℕ) : Side → Bool
  | .long => decide ((val v.e21 i < val v.e9 i ∧ val v.e50 i < val v.e21 i) ∧
      val v.e21 (i - 3) < val v.e21 i ∧ val v.e50 (i - 3) < val v.e50 i)
  | .short => decide ((val v.e9 i < val v.e21 i ∧ val v.e21 i < val v.e50 i) ∧
      val v.e21 i < val v.e21 (i - 3) ∧ val v.e50 i < val v.e50 (i - 3))

/-- `_matches`: `touched`. -/
def touched (i : ℕ) : Side → Bool
  | .long => decide (val (lows s) i ≤ max (val v.e9 i) (val v.e21 i))
  | .short => decide (min (val v.e9 i) (val v.e21 i) ≤ val (highs s) i)

/-- `_matches`: `green`. -/
def green (i : ℕ) : Side → Bool
  | .long => decide (val (opens s) i < val (closes s) i ∧ val v.e9 i < val (closes s) i)
  | .short => decide (val (closes s) i < val (opens s) i ∧ val (closes s) i < val v.e9 i)

/-- `_matches`: `zone`. -/
def rsiZone (side : Side) : ℚ × ℚ :=
  if x.preset.number = 5 ∧ side = .long then (35, 55)
  else if x.preset.number = 5 then (45, 65)
  else (45, 55)

/-- `_matches`: an RSI is in the zone. -/
def inZone (side : Side) (r : ℚ) : Bool := decide ((x.rsiZone side).1 ≤ r ∧ r ≤ (x.rsiZone side).2)

/-- `_matches`: `turned` before `previous_in_zone`. -/
def rsiTurned (i : ℕ) : Side → Bool
  | .long => decide (val v.rsi (i - 1) < val v.rsi i)
  | .short => decide (val v.rsi i < val v.rsi (i - 1))

/-- `_matches` of preset 12. -/
def matches12 (i : ℕ) (side : Side) : Except StrategyError Bool :=
  if s.length < 42 then .ok false
  else do
    let typical ← median (slice v.atr (i - 40) i)
    let volatility ← pyDiv (val v.atr i) typical
    pure (trend12 v i side && decide (9 / 10 ≤ volatility ∧ volatility ≤ 5 / 2) && breakout s i side &&
      impulse s v i && bodied s i side)

/-- `_matches` of preset 11. -/
def matches11 (i : ℕ) (side : Side) : Except StrategyError Bool :=
  if s.length < 50 then .ok false
  else do
    let typical ← median (slice v.atr (i - 48) i)
    let volatility ← pyDiv (val v.atr i) typical
    pure (trend11 v i side && decide (7 / 10 ≤ volatility ∧ volatility ≤ 11 / 5) && touched11 s v i side &&
      reclaim s v i side && rsiOk v i side)

/-- `_matches`. -/
def matchesSide (side : Side) : Except StrategyError Bool :=
  let i := s.length - 1
  if x.preset.number = 6 then .ok (x.trend s v i side && breaksBar s v i side)
  else if x.preset.number = 12 then matches12 s v i side
  else if x.preset.number = 11 then matches11 s v i side
  else if x.preset.number = 10 then
    .ok (x.trend s v i side && touched s v i side && green s v i side &&
      decide (40 ≤ val v.rsi i ∧ val v.rsi i ≤ 60))
  else
    .ok (x.trend s v i side && touched s v i side && green s v i side &&
      (rsiTurned v i side && (x.inZone side (val v.rsi (i - 1)) || x.inZone side (val v.rsi (i - 2)))))

/-- `_entry_side`: the first candidate that matches. -/
def firstMatch (macroTrend : Option Side) : List Side → Except StrategyError (Option Side)
  | [] => .ok none
  | side :: rest =>
    if x.preset.macroGated = true ∧ macroTrend ≠ some side then firstMatch macroTrend rest
    else do
      if ← x.matchesSide s v side then pure (some side) else firstMatch macroTrend rest

end Matches

/-- `_entry_side`. -/
def entrySide (s h4 : List ExactCandle) : Except StrategyError (Option Side) := do
  let rsi ← rsi (closes s)
  let atr ← atr s
  if val atr (s.length - 1) ≤ 0 then pure none
  else
    let macroTrend := if x.preset.macroGated then macroSide h4 else none
    if x.preset.macroGated = true ∧ macroTrend = none then pure none
    else
      x.firstMatch s ⟨ema (closes s) 9, ema (closes s) 21, ema (closes s) 50, rsi, atr⟩ macroTrend
        (if x.preset.longOnly then [.long] else [.long, .short])

/-- `_stop_price`. -/
def stopPrice (side : Side) (entry : ℚ) (s : List ExactCandle) (atr : ℚ) : ℚ :=
  if x.preset.pureAtrStop then
    let multiplier : ℚ := if x.preset.number = 10 then 6 / 5 else if x.preset.number = 11 then 8 / 5
      else 27 / 20
    match side with
    | .long => entry - multiplier * atr
    | .short => entry + multiplier * atr
  else
    let n := s.length
    let low := least (slice (lows s) (n - 11) n)
    let high := greatest (slice (highs s) (n - 11) n)
    let buffer := 3 / 2 * atr
    let e50 := val (ema (closes s) 50) (n - 1)
    let raw := match side with
      | .long => min low e50 - buffer
      | .short => max high e50 + buffer
    if |entry - raw| ≤ max (1 / 2) (1 / 2 * atr) then
      match side with
      | .long => entry - 2 * atr
      | .short => entry + 2 * atr
    else raw

/-- The quantity of `_open_if_allowed`. -/
def positionQty (entry risk : ℚ) : Except StrategyError ℚ := do
  let risked ← pyDiv (x.capital * x.riskPct) risk
  let bought ← pyDiv (x.capital * x.leverage) entry
  pure (min (⌊risked * 1000⌋ / 1000) (⌊bought * 1000⌋ / 1000))

/-! ## Signals -/

/-- A call of `emit_signal`. -/
def call (type : String) (fields : Entries) : Call := ⟨⟨x.alphaId, x.version⟩, type, fields⟩

/-- A number in a field. -/
def num (q : ℚ) : Json := .float (.fin q)

/-- The name of a position's UUID. -/
def positionName (m30Open : ℤ) (side : Side) (sameSide : ℕ) : String :=
  x.alphaId ++ "|" ++ x.version ++ "|" ++ toString m30Open ++ "|" ++ side.name ++ "|" ++ toString sameSide

/-- The position dict as JSON, its keys sorted. -/
def runtimeJson (p : XauPosition) : Json := .obj
  [("alpha_id", .str x.alphaId), ("breakeven", .bool p.breakeven), ("entry", num p.entry),
   ("initial_sl", num p.initialSl), ("position_id", .str p.positionId),
   ("preset", .int x.preset.number), ("qty", num p.qty), ("side", .str p.side.name), ("sl", num p.sl),
   ("symbol", .str x.symbol), ("tp", num p.tp), ("version", .str x.version)]

/-- The OPEN of `_open_if_allowed`. -/
def openCall (p : XauPosition) (m30Open : ℤ) : Call := x.call "OPEN"
  [("position_id", .str p.positionId), ("symbol", .str x.symbol), ("side", .str p.side.name),
   ("entry", num p.entry), ("qty", num p.qty), ("tp", num p.tp), ("sl", num p.sl),
   ("leverage", num x.leverage), ("exchange", .str x.exchange), ("fee_pct", num x.feePct),
   ("tf", .str "30m"), ("signal_candle_open_ms", .int m30Open),
   ("metadata", dumps (.obj
     [("allow_duplicate_position", .bool (decide (1 < x.preset.maxPositions))),
      ("preset", .int x.preset.number), ("strategy_runtime", x.runtimeJson p)]))]

/-- The CLOSE of `_manage_on_bar` and `on_price_alert`. -/
def closeCall (positionId reason : String) (exitPrice : ℚ) (executable : Bool) (source : String) : Call :=
  x.call "CLOSE"
    [("position_id", .str positionId), ("symbol", .str x.symbol), ("reason", .str reason),
     ("exit_price", num exitPrice),
     ("metadata", dumps (.obj [("ref_is_executable", .bool executable), ("source", .str source)]))]

/-- The MODIFY of `_manage_on_bar`. -/
def modifyCall (positionId : String) (sl : ℚ) : Call := x.call "MODIFY"
  [("position_id", .str positionId), ("symbol", .str x.symbol), ("sl", num sl),
   ("metadata", dumps (.obj [("reason", .str "BREAKEVEN_0_8R")]))]

/-! ## Positions -/

/-- `_manage_on_bar`: the price has crossed the slow average against the position. -/
def reversed (p : XauPosition) (price e50 : ℚ) : Bool :=
  match p.side with
  | .long => decide (price < e50)
  | .short => decide (e50 < price)

/-- `_manage_on_bar`: the stop is to be moved to the entry. -/
def breakevenDue (p : XauPosition) (price : ℚ) : Bool :=
  let risk := |p.entry - p.initialSl|
  let reached := match p.side with
    | .long => decide (4 / 5 * risk ≤ price - p.entry)
    | .short => decide (4 / 5 * risk ≤ p.entry - price)
  decide (0 < risk) && reached && !p.breakeven

/-- `on_price_alert`: the target is hit. -/
def hitTp (p : XauPosition) (price : ℚ) : Bool :=
  match p.side with
  | .long => decide (p.tp ≤ price)
  | .short => decide (price ≤ p.tp)

/-- `on_price_alert`: the stop is hit. -/
def hitSl (p : XauPosition) (price : ℚ) : Bool :=
  match p.side with
  | .long => decide (price ≤ p.sl)
  | .short => decide (p.sl ≤ price)

/-- `_open_if_allowed`: the entry is too close to a position of the same side. -/
def tooClose (entry atr : ℚ) (sameSide : List XauPosition) : Bool :=
  sameSide.any fun p => decide (|entry - p.entry| < 1 / 2 * atr)

/-- `_open_if_allowed` of preset 4: the entry is worse than a position of the same side. -/
def worseThan (side : Side) (entry : ℚ) (sameSide : List XauPosition) : Bool :=
  sameSide.any fun p => match side with
    | .long => decide (entry < p.entry)
    | .short => decide (p.entry < entry)

/-- The positions of a side. -/
def sameSide (s : XauState) (side : Side) : List XauPosition :=
  (s.positions.rows.map Prod.snd).filter fun p => p.side = side

/-- The position that `_open_if_allowed` stores. -/
def newPosition (positionId : String) (side : Side) (entry qty sl : ℚ) : XauPosition where
  positionId := positionId
  side := side
  entry := entry
  qty := qty
  tp := match side with
    | .long => entry + x.preset.rr * |entry - sl|
    | .short => entry - x.preset.rr * |entry - sl|
  sl := sl
  initialSl := sl

/-- `_is_trade_time`; `zone` is the weekday and the hour of an instant in the session's time zone. -/
def isTradeTime (zone : ℤ → ℕ × ℕ) (candleOpen : ℤ) : Bool :=
  let (weekday, hour) := zone (candleOpen + m30Ms)
  if x.tradeWeekends = false ∧ 5 ≤ weekday then false
  else !x.preset.sessionGated || decide (x.preset.sessionStart ≤ hour ∧ hour ≤ x.preset.sessionEnd)

/-- `should_scan_after_event` for a kline of the symbol and 15m; `latest` is what the cache has. -/
def shouldScanAfterEvent (ready : Bool) (latest : Option ℤ) (s : XauState) : XauState :=
  match ready, latest with
  | true, some latest =>
    let latestOpen := x.barOpenMs latest m15Ms
    let m30Open := latestOpen - m15Ms
    if latestOpen % m30Ms ≠ m15Ms then s
    else if s.lastM30Open.any fun last => m30Open ≤ last then s
    else { s with pendingM30Open := some m30Open }
  | _, _ => s

section Methods

variable (digest : Logical → String) (uuid5 : String → String) (zone : ℤ → ℕ × ℕ)
  (env : ℕ → DispatchEnv)

/-- A CLOSE, and the position leaves the book. -/
def closePosition (positionId reason : String) (exitPrice : ℚ) (executable : Bool) (source : String) :
    Method XauState Unit := do
  emitSignal digest env (x.closeCall positionId reason exitPrice executable source)
  modifyState fun s => { s with positions := s.positions.erase positionId }

/-- `_manage_on_bar`: the body of the loop. -/
def manageOne (price e50 : ℚ) (positionId : String) (p : XauPosition) : Method XauState Unit :=
  if reversed p price e50 then
    x.closePosition digest env positionId "EMA50_REVERSAL" price false "xau_m30_bar"
  else if breakevenDue p price then do
    emitSignal digest env (x.modifyCall positionId p.entry)
    modifyState fun s =>
      { s with positions := s.positions.set positionId { p with sl := p.entry, breakeven := true } }
  else pure ()

/-- `_manage_on_bar`: the loop. -/
def manageEach (price e50 : ℚ) : List (String × XauPosition) → Method XauState Unit
  | [] => pure ()
  | (positionId, p) :: rest => do
    x.manageOne digest env price e50 positionId p
    manageEach price e50 rest

/-- `_manage_on_bar`. -/
def manageOnBar (m30 : List ExactCandle) : Method XauState Unit :=
  if x.preset.number = 4 ∨ x.preset.number = 5 ∨ x.preset.number = 6 then do
    let s ← getState
    x.manageEach digest env (val (closes m30) (m30.length - 1))
      (val (ema (closes m30) 50) (m30.length - 1)) s.positions.rows
  else pure ()

/-- `_open_if_allowed`, at the time of the last candle. -/
def openIfAllowed (side : Side) (m30 : List ExactCandle) (m30Open : ℤ) : Method XauState Unit := do
  let s ← getState
  if x.preset.maxPositions ≤ s.positions.rows.length then pure ()
  else do
    let atrs ← Coro.ofExcept (atr m30)
    let atr := val atrs (m30.length - 1)
    let entry := val (closes m30) (m30.length - 1)
    if tooClose entry atr (sameSide s side) then pure ()
    else if x.preset.number = 4 ∧ worseThan side entry (sameSide s side) = true then pure ()
    else
      let sl := x.stopPrice side entry m30 atr
      if |entry - sl| ≤ 0 then pure ()
      else do
        let qty ← Coro.ofExcept (x.positionQty entry |entry - sl|)
        if qty < 1 / 1000 then pure ()
        else do
          let positionId := uuid5 (x.positionName m30Open side (sameSide s side).length)
          let position := x.newPosition positionId side entry qty sl
          emitSignal digest env (x.openCall position m30Open)
          modifyState fun s => { s with positions := s.positions.set positionId position }

/-- `scan` after `_manage_on_bar`. -/
def enter (m30 h4 : List ExactCandle) (m30Open : ℤ) (canOpen : Bool) : Method XauState Unit :=
  if canOpen = false ∨ x.isTradeTime zone m30Open = false then pure ()
  else do
    let side ← Coro.ofExcept (x.entrySide m30 h4)
    match side with
    | none => pure ()
    | some side => x.openIfAllowed digest uuid5 env side m30 m30Open

/-- `scan` reaches `_manage_on_bar`: the pending candle is the last one of enough, and the H4 candles are
enough for the presets that need them. -/
def due (s : XauState) (m15 h4 : List ExactCandle) : Option ℤ :=
  match s.pendingM30Open, (x.m30Series m15).getLast? with
  | some m30Open, some last =>
    if (x.m30Series m15).length < 80 ∨ last.time ≠ m30Open then none
    else if x.preset.macroGated = true ∧ (x.completedH4 h4 (last.time + m30Ms)).length < 55 then none
    else some m30Open
  | _, _ => none

/-- `scan`; `canOpen` is `can_open_trades`. -/
def scan (m15 h4 : List ExactCandle) (canOpen : Bool) : Method XauState Unit := do
  let s ← getState
  match x.due s m15 h4 with
  | none => pure ()
  | some m30Open => do
    modifyState fun s => { s with lastM30Open := some m30Open, pendingM30Open := none }
    x.manageOnBar digest env (x.m30Series m15)
    x.enter digest uuid5 zone env (x.m30Series m15) (x.completedH4 h4 (m30Open + m30Ms)) m30Open canOpen

/-- `on_price_alert`: the body of the loop. -/
def alertOne (price : ℚ) (positionId : String) (p : XauPosition) : Method XauState Unit :=
  if hitTp p price || hitSl p price then
    x.closePosition digest env positionId (if hitTp p price then "TP_HIT" else "SL_HIT") price true
      "xau_m30_price_alert"
  else pure ()

/-- `on_price_alert`: the loop. -/
def alertEach (price : ℚ) : List (String × XauPosition) → Method XauState Unit
  | [] => pure ()
  | (positionId, p) :: rest => do
    x.alertOne digest env price positionId p
    alertEach price rest

/-- `on_price_alert`. -/
def onPriceAlert (symbol : String) (price : ℚ) : Method XauState Unit :=
  if symbol ≠ x.symbol then pure ()
  else do
    let s ← getState
    x.alertEach digest env price s.positions.rows

/-- A kline event, a scan of two snapshots, or a price alert. -/
inductive Event
  | kline (ready : Bool) (latest : Option ℤ)
  | scan (m15 h4 : List ExactCandle) (canOpen : Bool)
  | alert (symbol : String) (price : ℚ)

/-- One event; an exception leaves the state as it is at that point. -/
def step (w : XauState × Outbox) : Event → XauState × Outbox
  | .kline ready latest => (x.shouldScanAfterEvent ready latest w.1, w.2)
  | .scan m15 h4 canOpen => ((x.scan digest uuid5 zone env m15 h4 canOpen).run w).2
  | .alert symbol price => ((x.onPriceAlert digest env symbol price).run w).2

/-- A run of the strategy. -/
def run (w : XauState × Outbox) (events : List Event) : XauState × Outbox :=
  events.foldl (x.step digest uuid5 zone env) w

end Methods

end XauM30

end PaperTrade.Runner
