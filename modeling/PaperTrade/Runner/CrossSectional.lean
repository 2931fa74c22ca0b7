import PaperTrade.CrossAlpha.Spec
import PaperTrade.Runner.Strategy
import PaperTrade.Runtime.Roots

/-!
# `CrossSectionalRunnerStrategy`: rebalancing

A strategy that trades a cross-section: `_apply_selection` closes what the strategy holds and opens
what has been selected. The worker's snapshot of the open positions is authoritative; at the start
`reconcile_open_positions` takes the book from it, and a rebalance adopts from it what the strategy does
not hold.

This is the branch that trades; an alpha that only publishes its book goes through the ledger of
virtual trades. `save_positions`, the price alerts and the logs are left out: no run reads them back.
-/

namespace PaperTrade.Runner

open PaperTrade.Runtime PaperTrade.CrossAlpha

/-- `await self.ctx.emit_signal(…)`, with what becomes of the signal. -/
def emitReply {σ : Type} (digest : Logical → String) (env : ℕ → DispatchEnv) (call : Call) :
    Method σ Reply :=
  .sync (fun w => (w.1, w.2.send digest (w.2.next env) call)) fun w =>
    .done (match (w.2.dispatcher.dispatch digest (w.2.next env) call).1 with
      | .raised _ => .error .appendRaised
      | r => .ok r)

/-- `datetime.now(timezone.utc).isoformat()` in a call of `emit_signal`. -/
def getNow {σ : Type} (env : ℕ → DispatchEnv) : Method σ String :=
  .sync id fun w => .done (.ok (w.2.next env).now)

/-! ## Positions -/

/-- A position of the book: one that was opened here, or one of the worker's snapshot. -/
structure OpenPosition where
  positionId : String
  symbol : String
  side : String
  entry : Option PyFloat
  entryPrice : Option PyFloat := none
  qty : PyFloat
  weight : Option PyFloat := none
  strategyLeverage : Option PyFloat := none
  entryCandleOpenMs : ℤ := 0
deriving DecidableEq

/-- The positions of a worker's snapshot, by their ids. -/
abbrev Snapshot := Table OpenPosition.positionId

/-- The entry of the runner's book that has the id of a position. -/
def matchOf (runnerStore : Dict String OpenPosition) (positionId : String) :
    Option (String × OpenPosition) :=
  (runnerStore.rows.filter fun e => e.2.positionId ≠ "" ∧ e.2.positionId = positionId).getLast?

/-- `merge_authoritative_positions`: one position of the snapshot. -/
def mergePosition (runnerStore : Dict String OpenPosition)
    (st : Dict String OpenPosition × List String) (normalized : OpenPosition) :
    Dict String OpenPosition × List String :=
  match matchOf runnerStore normalized.positionId with
  | some e => (st.1.set e.1 e.2, st.2)
  | none =>
    if normalized.symbol = "" then st
    else (st.1.set normalized.symbol normalized, st.2 ++ [normalized.positionId])

/-- `merge_authoritative_positions`: the book, what was adopted, and what was dropped. -/
def mergeAuthoritativePositions (runnerStore : Dict String OpenPosition) (authoritative : Snapshot) :
    Dict String OpenPosition × List String × List String :=
  let merged := authoritative.rows.foldl (mergePosition runnerStore) (.empty, [])
  (merged.1, merged.2, ((runnerStore.rows.map fun e => e.2.positionId).dedup.filter fun pid =>
    pid ≠ "" ∧ authoritative.contains pid = false))

/-- `reconcile_open_positions`. -/
def reconcileOpenPositions (runnerStore : Dict String OpenPosition) :
    Option Snapshot → Dict String OpenPosition
  | none => runnerStore
  | some authoritative => (mergeAuthoritativePositions runnerStore authoritative).1

/-! ## The strategy -/

/-- The configuration of the strategy. -/
structure CrossSectional where
  alphaId : String
  version : String
  spec : AlphaSpec
  exchange : String := "binance"
  capital : ℚ := 10000
  symbols : List String := []
  scanMinSymbolCoverage : ℚ := 9 / 10

/-- `StrategyRuntimeState`. -/
structure StrategyRuntimeState where
  dataStale : Bool := false
  reconcileStale : Bool := false
  priceAlertStale : Bool := false
  leaseValid : Bool := true
  ready : Bool := false
deriving DecidableEq

/-- `can_open_new_trades`. -/
def StrategyRuntimeState.canOpenNewTrades (s : StrategyRuntimeState) : Bool :=
  s.ready && s.leaseValid && !s.dataStale && !s.reconcileStale && !s.priceAlertStale

/-- What the strategy keeps between two scans. -/
structure CrossState where
  openPositions : Dict String OpenPosition := .empty
  baseWeights : Dict String PyFloat := .empty
  lastPrices : Dict String PyFloat := .empty
  portfolioReturns : List PyFloat := []
  equity : PyFloat := 1
  peakEquity : PyFloat := 1
  pendingCost : PyFloat := 0
  strategyLeverage : PyFloat := 1
  lastProcessedCandle : ℤ := 0
  warmupComplete : Bool := false
  runtime : StrategyRuntimeState := {}
  liveTradableSymbols : Option (List String) := none
  /-- how many ids have been drawn -/
  drawn : ℕ := 0

namespace CrossSectional

variable (x : CrossSectional)

/-- `values[-n:]`. -/
def lastOf {α : Type} (n : ℕ) (values : List α) : List α := if n = 0 then values else values.drop (values.length - n)

/-- The sum of a list of floats. -/
def sumOf (values : List PyFloat) : PyFloat := values.foldl (· + ·) 0

/-- `_vol_target_leverage`. -/
def volTargetLeverage (s : CrossState) : PyFloat :=
  let minimum := max 2 (x.spec.volLookback / 2)
  let values := lastOf x.spec.volLookback s.portfolioReturns
  if values.length < minimum then s.strategyLeverage
  else
    let mean := sumOf values / .fin values.length
    let variance := sumOf (values.map fun v => (v - mean) * (v - mean)) / .fin (values.length - 1)
    let rv := variance.sqrt * (PyFloat.fin x.spec.ppy).sqrt
    if rv ≤ 0 then 0 else (PyFloat.fin x.spec.maxLeverage).min (.fin x.spec.targetVol / rv)

/-- `_closest_exit_price`; `cachedClose` is the last close in the cache. -/
def closestExitPrice (symbol : String) (prices lastPrices : Dict String PyFloat)
    (cachedClose : String → Option PyFloat) (pos : OpenPosition) : PyFloat :=
  let entry := (pos.entry.filter PyFloat.truthy).or pos.entryPrice
  let candidates := [prices.get? symbol, (cachedClose symbol).filter fun v => 0 < v,
    lastPrices.get? symbol, entry]
  ((candidates.filterMap id).find? fun v => 0 < v).getD
    (((pos.entry.filter PyFloat.truthy).or (pos.entryPrice.filter PyFloat.truthy)).getD 0)

/-- `_apply_selection`: an orphan of the snapshot is adopted under its symbol. -/
def adopt (book : Dict String OpenPosition) (pos : OpenPosition) : Dict String OpenPosition :=
  if pos.symbol = "" ∨ book.contains pos.symbol then book else book.set pos.symbol pos

/-- A call of `emit_signal`. -/
def call (type : String) (fields : Entries) : Call := ⟨⟨x.alphaId, x.version⟩, type, fields⟩

/-- The CLOSE of a rebalance. -/
def closeCall (symbol positionId : String) (exitPrice : PyFloat) (candleOpenMs : ℤ) : Call :=
  x.call "CLOSE"
    [("symbol", .str symbol), ("tf", .str x.spec.timeframe), ("position_id", .str positionId),
     ("exit_price", .float exitPrice), ("reason", .str "REBALANCE"),
     ("signal_candle_open_ms", .int candleOpenMs)]

def jsonFloat (v : Option PyFloat) : Json := (v.map .float).getD .null

/-- The OPEN of a rebalance. -/
def openCall (selection : Selection) (pos : OpenPosition) (candleOpenMs : ℤ) (now : String) : Call :=
  x.call "OPEN"
    [("symbol", .str pos.symbol), ("side", .str pos.side), ("tf", .str x.spec.timeframe),
     ("entry", jsonFloat pos.entry), ("qty", .float pos.qty), ("leverage", .int 1),
     ("position_id", .str pos.positionId), ("exchange", .str x.exchange),
     ("fee_pct", .float (.fin (x.spec.feeBps / 10000))),
     ("metadata", dumps (.obj
       [("score", jsonFloat (selection.scores.get? pos.symbol)),
        ("rank", jsonFloat (selection.ranks.get? pos.symbol)),
        ("weight", jsonFloat pos.weight), ("strategy_leverage", jsonFloat pos.strategyLeverage),
        ("gross", .float selection.gross), ("net", .float selection.net),
        ("vwap_source", .str "typical_price_proxy"),
        ("liquidity_source", .str "close_x_base_volume_proxy")])),
     ("signal_candle_open_ms", .int candleOpenMs), ("timestamp", .str now)]

/-- The turnover of a rebalance. -/
def turnover (before after : Dict String PyFloat) : PyFloat :=
  sumOf ((before.keys ++ after.keys).dedup.map fun symbol =>
    ((after.get? symbol).getD 0 - (before.get? symbol).getD 0).abs)

/-- The selected weights with a price, in the live universe. -/
def tradableWeights (selection : Selection) (prices : Dict String PyFloat)
    (tradable : Option (List String)) : List (String × PyFloat) :=
  selection.weights.rows.filter fun e =>
    (match prices.get? e.1 with
      | none => false
      | some price => price.truthy && !decide (price ≤ 0)) &&
    (match tradable with
      | none => true
      | some symbols => decide (e.1 ∈ symbols))

/-- `sorted(symbols, key=…)[:n]`. -/
def weakest (key : String → PyFloat) (n : ℕ) (symbols : List String) : List String :=
  (symbols.insertionSort fun a b => ¬ key b < key a).take n

/-- The larger side is trimmed to the smaller one, the weakest first. -/
def balance (weights : List (String × PyFloat)) : List (String × PyFloat) :=
  let weightOf := fun symbol => ((weights.find? fun e => e.1 = symbol).map fun e => e.2).getD 0
  let longs := ((weights.filter fun e => 0 < e.2).map fun e => e.1).insertionSort (· ≤ ·)
  let shorts := ((weights.filter fun e => e.2 < 0).map fun e => e.1).insertionSort (· ≤ ·)
  if longs ≠ [] ∧ shorts ≠ [] ∧ longs.length ≠ shorts.length then
    let target := min longs.length shorts.length
    let drop :=
      if target < longs.length then weakest weightOf (longs.length - target) longs
      else weakest (fun symbol => (weightOf symbol).abs) (shorts.length - target) shorts
    weights.filter fun e => e.1 ∉ drop
  else weights

section Run

variable (digest : Logical → String) (uuid4 : ℕ → String) (env : ℕ → DispatchEnv)

/-- The position that is opened for a weight. -/
def newPosition (prices : Dict String PyFloat) (candleOpenMs : ℤ) (s : CrossState) (symbol : String)
    (weight : PyFloat) : OpenPosition :=
  let price := (prices.get? symbol).getD 0
  let notional := PyFloat.fin x.capital * weight.abs * s.strategyLeverage
  { positionId := uuid4 s.drawn, symbol, side := if 0 < weight then "LONG" else "SHORT"
    entry := some price, qty := notional / price, weight := some weight
    strategyLeverage := some s.strategyLeverage, entryCandleOpenMs := candleOpenMs }

/-- `emit_signal` of this strategy: a dispatch without a valid lease clears `lease_valid`. -/
def emit (c : Call) : Method CrossState Reply := do
  let reply ← emitReply digest env c
  match reply with
  | .dropped =>
    modifyState fun s => { s with runtime := { s.runtime with leaseValid := false } }
    return reply
  | _ => return reply

/-- What becomes of a position after its OPEN: it is dropped again when no id came back and the lease
is known to be invalid. -/
def afterOpen (symbol : String) (reply : Reply) (s : CrossState) : CrossState :=
  match reply with
  | .published _ => s
  | _ =>
    if s.runtime.leaseValid then s else { s with openPositions := s.openPositions.erase symbol }

/-- The CLOSE of every position of the book. -/
def closeAll (prices : Dict String PyFloat) (cachedClose : String → Option PyFloat)
    (candleOpenMs : ℤ) : List (String × OpenPosition) → Method CrossState Unit
  | [] => pure ()
  | (symbol, pos) :: book => do
    let s ← getState
    let price := closestExitPrice symbol prices s.lastPrices cachedClose pos
    let _ ← emit digest env (x.closeCall symbol pos.positionId price candleOpenMs)
    closeAll prices cachedClose candleOpenMs book

/-- The OPEN of every weight. -/
def openAll (selection : Selection) (prices : Dict String PyFloat) (candleOpenMs : ℤ) :
    List (String × PyFloat) → Method CrossState Unit
  | [] => pure ()
  | (symbol, weight) :: weights => do
    let s ← getState
    let pos := x.newPosition uuid4 prices candleOpenMs s symbol weight
    modifyState fun s =>
      { s with openPositions := s.openPositions.set symbol pos, drawn := s.drawn + 1 }
    let now ← getNow env
    let reply ← emit digest env (x.openCall selection pos candleOpenMs now)
    modifyState (afterOpen symbol reply)
    openAll selection prices candleOpenMs weights

/-- `_apply_selection` of an alpha that trades. -/
def applySelection (selection : Selection) (prices : Dict String PyFloat) (candleOpenMs : ℤ)
    (authoritative : Option Snapshot) (cachedClose : String → Option PyFloat) :
    Method CrossState Unit := do
  modifyState fun s => { s with
    openPositions := ((authoritative.map Table.rows).getD []).foldl adopt s.openPositions }
  let s ← getState
  x.closeAll digest env prices cachedClose candleOpenMs s.openPositions.rows
  modifyState fun s => { s with openPositions := .empty }
  modifyState fun s => { s with
    pendingCost := turnover s.baseWeights selection.weights * .fin x.spec.feeBps / 10000
    strategyLeverage := x.volTargetLeverage s
    baseWeights := selection.weights }
  let s ← getState
  if s.strategyLeverage ≤ 0 ∨ s.runtime.canOpenNewTrades = false then pure ()
  else
    x.openAll digest uuid4 env selection prices candleOpenMs
      (balance (tradableWeights selection prices s.liveTradableSymbols))

/-- What a rebalance is called with. -/
structure Rebalance where
  selection : Selection
  prices : Dict String PyFloat
  candleOpenMs : ℤ
  authoritative : Option Snapshot
  cachedClose : String → Option PyFloat

/-- A rebalance, or anything else the runner and the scans change: all but the book. -/
inductive CrossEvent
  | rebalance (r : Rebalance)
  | other (s : CrossState)

/-- `_apply_selection`, also when it raises. -/
def rebalance (r : Rebalance) (w : CrossState × Outbox) : CrossState × Outbox :=
  ((x.applySelection digest uuid4 env r.selection r.prices r.candleOpenMs r.authoritative
    r.cachedClose).run w).2

/-- One event. -/
def step (w : CrossState × Outbox) : CrossEvent → CrossState × Outbox
  | .rebalance r => x.rebalance digest uuid4 env r w
  | .other s => ({ s with openPositions := w.1.openPositions, drawn := w.1.drawn }, w.2)

/-- A run of a process that starts with what it reconciles. -/
def run (d : Dispatcher) (runnerStore : Dict String OpenPosition) (authoritative : Option Snapshot)
    (events : List CrossEvent) : CrossState × Outbox :=
  events.foldl (x.step digest uuid4 env)
    ({ openPositions := reconcileOpenPositions runnerStore authoritative }, { dispatcher := d })

/-- The calls that a rebalance makes. -/
def sentBy (r : Rebalance) (w : CrossState × Outbox) : List Call :=
  (Dispatcher.calls (x.rebalance digest uuid4 env r w).2.history).drop
    (Dispatcher.calls w.2.history).length

end Run

end CrossSectional

end PaperTrade.Runner
