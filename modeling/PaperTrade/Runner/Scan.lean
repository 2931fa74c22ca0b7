import PaperTrade.CrossAlpha.Schedule
import PaperTrade.Runner.CrossSectional
import PaperTrade.Runtime.Literal

/-!
# `CrossSectionalRunnerStrategy`: scans and restarts

`scan` marks the weights that are held to the prices of the newest bar, and on a bar that is due it
selects a new book and applies it. An alpha that trades applies it with `applySelection`; an alpha
that only publishes its book writes it to `book:target:…`, and every mark of it to `shadow:pnl:…`,
from where `_restore_shadow_state` takes both after a restart.

Scans of one strategy follow each other: its event loop waits for one before the next. What a scan
reads from elsewhere, and what may raise on its way, is its `ScanReads`. The clock of a payload and
the ledger of virtual trades, whose failures the scan swallows, are left out; so are the logs, but for
the audit line, which can raise.
-/

namespace PaperTrade.Runner

open PaperTrade.Runtime PaperTrade.CrossAlpha

/-! ## The target book -/

/-- `TargetBook`. -/
structure TargetBook where
  sleeveId : String
  revision : ℤ
  asOfCandleMs : ℤ
  timeframe : String
  gross : PyFloat
  net : PyFloat
  weights : Dict String PyFloat
  nLong : ℕ
  nShort : ℕ
  capital : PyFloat
  exchange : String
  prices : List (String × PyFloat)
  diagnosticGross : PyFloat
  diagnosticNet : PyFloat

namespace TargetBook

/-- `TargetBook.__post_init__`. -/
def valid (b : TargetBook) : Bool :=
  decide (b.sleeveId ≠ "" ∧ 0 ≤ b.revision ∧ 0 ≤ b.asOfCandleMs ∧ b.timeframe ≠ "") &&
    b.weights.rows.all (fun e => decide (e.1 ≠ "") && e.2.isFinite) &&
    (b.gross.isFinite && !decide (b.gross < 0)) && b.net.isFinite

/-- `to_json` refuses a value that is not finite. -/
def encodable (b : TargetBook) : Bool :=
  b.capital.isFinite && b.prices.all (fun e => e.2.isFinite) && b.diagnosticGross.isFinite &&
    b.diagnosticNet.isFinite

/-- What is read back of a book that was written: its JSON has sorted keys. -/
def stored (b : TargetBook) : TargetBook where
  __ := b
  weights := b.weights.sorted

end TargetBook

/-! ## What a scan reads and returns -/

/-- What a scan raises. -/
inductive ScanError
  /-- `_shared_panel_bundle` -/
  | panel
  /-- `unsupported timeframe` -/
  | timeframe
  /-- `integer division or modulo by zero` -/
  | zeroDivision
  /-- `_select_positions`, or a watchdog that cancels the wait for it -/
  | selection
  /-- `json.dumps(…, allow_nan=False)` of the audit line -/
  | audit
  /-- `TargetBook.create` or `to_json` -/
  | book
  /-- Redis, on the write of the target book -/
  | redis
  /-- `_apply_selection` of an alpha that trades -/
  | apply (e : StrategyError)
deriving DecidableEq

/-- Where a scan ends that does not raise. -/
inductive ScanEnd
  | notReady
  | noPanel
  | stale
  /-- it waits for the close at 00:00 UTC -/
  | gated
  | notDue
  /-- `_apply_selection` has been executed for the bar -/
  | applied (candleOpenMs : ℤ)
deriving DecidableEq

/-- The bar of the scan has been processed. -/
def ScanEnd.processed : ScanEnd → Bool
  | gated | notDue | applied _ => true
  | notReady | noPanel | stale => false

/-- A `PanelBundle`: its newest bar, and the columns of `panel["close"]`, oldest first. -/
structure PanelBundle where
  latest : ℤ
  close : List (String × List PyFloat)

/-- `panel["close"].ffill().iloc[-1].dropna()`. -/
def PanelBundle.prices (b : PanelBundle) : Dict String PyFloat :=
  .collect (fun c => (c.2.reverse.find? fun v => v ≠ .nan).map fun v => (c.1, v)) b.close

/-- What a scan reads. -/
structure ScanReads where
  /-- `await self._shared_panel_bundle()` -/
  bundle : Except ScanError (Option PanelBundle)
  /-- `_latest_cached_timestamp` -/
  cacheLatest : ℤ
  /-- `_select_positions`, from the drawdown -/
  select : PyFloat → Except ScanError Selection
  /-- the audit line can be written -/
  audit : Selection → Bool
  authoritative : Option Snapshot := none
  cachedClose : String → Option PyFloat := fun _ => none
  /-- Redis accepts the write of `shadow:pnl:…` -/
  pnlSet : Bool := true
  /-- and its broadcast -/
  pnlPublish : Bool := true
  /-- Redis accepts the write of the target book -/
  bookSet : Bool := true
  /-- and its broadcast -/
  bookPublish : Bool := true

/-- What is published of a mark. -/
structure ShadowPayload where
  alphaId : String
  ret : PyFloat
  equity : PyFloat
  peakEquity : PyFloat
  capital : PyFloat
  prices : Dict String PyFloat

/-- The strategy, its outbox, and what Redis keeps of it. -/
structure ScanWorld where
  state : CrossState := {}
  shadowEquity : PyFloat := 1
  bookRevision : ℕ := 0
  outbox : Outbox
  /-- `shadow:pnl:…` -/
  shadowPnl : Option ShadowPayload := none
  /-- `book:target:…` -/
  targetBook : Option TargetBook := none
  /-- the payloads on `shadow:pnl:updated:…` -/
  published : List ShadowPayload := []

/-- A strategy that scans. -/
structure Scanner extends CrossSectional where
  bookOnly : Bool := toCrossSectional.spec.bookOnly
  /-- `ctx.redis_client is not None` -/
  hasRedis : Bool := true
  initialStrategyLeverage : PyFloat := 1

namespace Scanner

open CrossSectional

variable (x : Scanner)

/-- `_tf_to_ms`; `none` is what raises. -/
def tfToMs (tf : String) : Option ℤ :=
  let unit := tf.toList.getLast?
  (parseInt (String.ofList tf.toList.dropLast)).bind fun value =>
    if unit = some 'm' then some (value * 60000)
    else if unit = some 'h' then some (value * 3600000)
    else if unit = some 'd' then some (value * 86400000)
    else none

/-- `_current_drawdown`. -/
def currentDrawdown (s : CrossState) : PyFloat :=
  if s.peakEquity ≤ 0 then 0 else (s.equity - s.peakEquity) / s.peakEquity

/-! ## Marks -/

/-- The return of a weight, when its symbol has both prices. -/
def markOf (lastPrices prices : Dict String PyFloat) (e : String × PyFloat) : Option PyFloat :=
  match lastPrices.get? e.1, prices.get? e.1 with
  | some before, some after =>
    if before.truthy && after.truthy && decide (0 < before) then some (e.2 * (after / before - 1))
    else none
  | _, _ => none

/-- The return of the weights between two price maps. -/
def grossReturn (weights lastPrices prices : Dict String PyFloat) : PyFloat :=
  sumOf (weights.rows.filterMap (markOf lastPrices prices))

/-- `_publish_shadow_pnl`; what Redis refuses is swallowed. -/
def publishShadowPnl (i : ScanReads) (ret : PyFloat) (prices : Dict String PyFloat)
    (w : ScanWorld) : ScanWorld :=
  let payload : ShadowPayload :=
    ⟨x.alphaId, ret, w.shadowEquity, w.state.peakEquity, .fin x.capital, prices⟩
  if x.hasRedis && i.pnlSet then { w with
    shadowPnl := some payload
    published := if i.pnlPublish then w.published ++ [payload] else w.published }
  else w

/-- The state after the return `ret` of a bar. -/
def compound (ret : PyFloat) (s : CrossState) : CrossState :=
  let equity := s.equity * (1 + ret)
  { s with
    portfolioReturns := lastOf (max (x.spec.volLookback * 2) 10) (s.portfolioReturns ++ [ret])
    pendingCost := 0
    equity := equity
    peakEquity := if s.peakEquity < equity then equity else s.peakEquity }

/-- `_record_portfolio_return`. -/
def recordPortfolioReturn (i : ScanReads) (prices : Dict String PyFloat) (w : ScanWorld) :
    ScanWorld :=
  if w.state.lastPrices.rows = [] ∨ w.state.baseWeights.rows = [] then w
  else
    let ret := grossReturn w.state.baseWeights w.state.lastPrices prices - w.state.pendingCost
    let w := { w with state := x.compound ret w.state }
    if x.bookOnly then
      x.publishShadowPnl i ret prices { w with shadowEquity := w.shadowEquity * (1 + ret) }
    else w

/-! ## Books -/

/-- `TargetBook.create`, before its checks. -/
def newBook (selection : Selection) (prices : Dict String PyFloat) (candleOpenMs revision : ℤ) :
    TargetBook :=
  let clean := selection.weights.filter fun e => e.2 ≠ 0
  { sleeveId := x.alphaId
    revision := revision
    asOfCandleMs := candleOpenMs
    timeframe := x.spec.timeframe
    gross := sumOf (clean.rows.map fun e => e.2.abs)
    net := sumOf (clean.rows.map Prod.snd)
    weights := clean
    nLong := selection.longs.length
    nShort := selection.shorts.length
    capital := .fin x.capital
    exchange := x.exchange
    prices := selection.weights.keys.filterMap fun symbol =>
      (prices.get? symbol).map fun price => (symbol, price)
    diagnosticGross := selection.gross
    diagnosticNet := selection.net }

/-- `_publish_target_book`. -/
def publishTargetBook (i : ScanReads) (selection : Selection) (prices : Dict String PyFloat)
    (candleOpenMs : ℤ) (w : ScanWorld) : Except ScanError Unit × ScanWorld :=
  if x.hasRedis then
    let w := { w with bookRevision := w.bookRevision + 1 }
    let book := x.newBook selection prices candleOpenMs w.bookRevision
    if book.valid && book.encodable then
      if i.bookSet then
        (if i.bookPublish then .ok () else .error .redis, { w with targetBook := some book.stored })
      else (.error .redis, w)
    else (.error .book, w)
  else (.ok (), w)

section Scan

variable (digest : Logical → String) (uuid4 : ℕ → String) (env : ℕ → DispatchEnv)

/-- `_apply_selection`. -/
def apply (i : ScanReads) (selection : Selection) (prices : Dict String PyFloat)
    (candleOpenMs : ℤ) (w : ScanWorld) : Except ScanError Unit × ScanWorld :=
  if x.bookOnly then
    x.publishTargetBook i selection prices candleOpenMs
      { w with state := { w.state with baseWeights := selection.weights } }
  else
    let r := (x.applySelection digest uuid4 env selection prices candleOpenMs i.authoritative
      i.cachedClose).run (w.state, w.outbox)
    (r.1.mapError .apply, { w with state := r.2.1, outbox := r.2.2 })

/-- The two assignments that end the scan of a bar. -/
def advance (prices : Dict String PyFloat) (latest : ℤ) (w : ScanWorld) : ScanWorld :=
  { w with state := { w.state with lastPrices := prices, lastProcessedCandle := latest } }

/-- The bar of a scan: the newest of the panel, or of the cache when that is at most two bars ahead. -/
def scanned (i : ScanReads) (bundle : PanelBundle) (tfMs : ℤ) : ℤ :=
  if bundle.latest < i.cacheLatest ∧ i.cacheLatest ≤ bundle.latest + 2 * tfMs then i.cacheLatest
  else bundle.latest

/-- `is_rebalance_due` of the alpha. -/
def due (candleOpenMs tfMs : ℤ) : Option Bool :=
  isRebalanceDue candleOpenMs tfMs x.spec.rebalanceBars x.spec.publishAtMidnightUtc
    x.spec.rebalanceOnClose

/-- The part of `scan` that selects a book and applies it. -/
def select (i : ScanReads) (prices : Dict String PyFloat) (latest : ℤ) (w : ScanWorld) :
    Except ScanError ScanEnd × ScanWorld :=
  match i.select (currentDrawdown w.state) with
  | .error e => (.error e, w)
  | .ok selection =>
    if i.audit selection then
      match x.apply digest uuid4 env i selection prices latest w with
      | (.error e, w) => (.error e, w)
      | (.ok (), w) => (.ok (.applied latest), advance prices latest w)
    else (.error .audit, w)

/-- The part of `scan` from the mark on, at a bar that is new. -/
def process (i : ScanReads) (prices : Dict String PyFloat) (latest tfMs : ℤ) (w : ScanWorld) :
    Except ScanError ScanEnd × ScanWorld :=
  let w := x.recordPortfolioReturn i prices w
  if x.spec.publishAtMidnightUtc && !isMidnightCloseUtc latest tfMs then
    (.ok .gated, advance prices latest w)
  else
    match x.due latest tfMs with
    | none => (.error .zeroDivision, w)
    | some isRebalance =>
      if !isRebalance && (!w.state.openPositions.rows.isEmpty || x.bookOnly) then
        (.ok .notDue, advance prices latest w)
      else x.select digest uuid4 env i prices latest w

/-- `scan`. -/
def scan (i : ScanReads) (w : ScanWorld) : Except ScanError ScanEnd × ScanWorld :=
  if !w.state.runtime.ready && w.state.openPositions.rows.isEmpty then (.ok .notReady, w)
  else
    match i.bundle, tfToMs x.spec.timeframe with
    | .error e, _ => (.error e, w)
    | .ok none, _ => (.ok .noPanel, w)
    | .ok (some _), none => (.error .timeframe, w)
    | .ok (some bundle), some tfMs =>
      let latest := scanned i bundle tfMs
      if latest ≤ w.state.lastProcessedCandle then (.ok .stale, w)
      else x.process digest uuid4 env i bundle.prices latest tfMs w

/-! ## Restarts -/

/-- What a new process finds. -/
structure Boot where
  /-- the dispatcher is restored -/
  dispatcherRestored : Bool := true
  /-- `reconcile_open_positions` -/
  openPositions : Dict String OpenPosition := .empty
  /-- after the warm-up -/
  runtime : StrategyRuntimeState := { ready := true }
  /-- the newest bar of the panel after the warm-up, when there is a panel -/
  warm : Option ℤ

/-- The mark that `_restore_shadow_state` finds, when its equity is positive. -/
def restoredMark (w : ScanWorld) : Option ShadowPayload := w.shadowPnl.filter fun p => 0 < p.equity

/-- `_restore_shadow_state`. -/
def restoreShadowState (w : ScanWorld) : ScanWorld :=
  let base := ((w.targetBook.map TargetBook.weights).getD .empty)
  let w :=
    match restoredMark w with
    | none => w
    | some p => { w with
      shadowEquity := p.equity
      state := { w.state with
        equity := p.equity
        peakEquity := p.equity.max p.peakEquity
        lastPrices := if p.prices.rows = [] then w.state.lastPrices else p.prices } }
  if base.rows = [] then w else { w with state := { w.state with baseWeights := base } }

/-- `__init__`, but for what `_restore_shadow_state` restores. -/
def newProcess (b : Boot) (w : ScanWorld) : ScanWorld where
  state :=
    { openPositions := b.openPositions, strategyLeverage := x.initialStrategyLeverage
      runtime := b.runtime, drawn := w.state.drawn }
  outbox := w.outbox.restart b.dispatcherRestored
  shadowPnl := w.shadowPnl
  targetBook := w.targetBook
  published := w.published

/-- The warm-up marks the newest bar as processed. -/
def warmUp (b : Boot) (w : ScanWorld) : ScanWorld :=
  if b.runtime.ready then { w with
    state := { w.state with
      lastProcessedCandle := b.warm.getD w.state.lastProcessedCandle, warmupComplete := true } }
  else w

/-- A new process. -/
def restart (b : Boot) (w : ScanWorld) : ScanWorld :=
  warmUp b
    (if x.bookOnly && x.hasRedis then restoreShadowState (x.newProcess b w) else x.newProcess b w)

/-! ## Runs -/

/-- What happens to a strategy. -/
inductive ScanEvent
  | scan (i : ScanReads)
  /-- readiness, leases and the live universe change -/
  | runtime (r : StrategyRuntimeState) (liveTradableSymbols : Option (List String))
  | restart (b : Boot)

/-- One event. -/
def step (w : ScanWorld) : ScanEvent → ScanWorld
  | .scan i => (x.scan digest uuid4 env i w).2
  | .runtime r symbols =>
    { w with state := { w.state with runtime := r, liveTradableSymbols := symbols } }
  | .restart b => x.restart b w

/-- A run. -/
def run (w : ScanWorld) (events : List ScanEvent) : ScanWorld :=
  events.foldl (x.step digest uuid4 env) w

/-- Every step of a run meets a condition on the state before it. -/
def Along (meets : ScanWorld → ScanEvent → Prop) : ScanWorld → List ScanEvent → Prop
  | _, [] => True
  | w, e :: events => meets w e ∧ Along meets (x.step digest uuid4 env w e) events

/-! ## What a rebalance keeps -/

/-- What the signals of a rebalance do not touch. -/
def accounts (s : CrossState) : (PyFloat × PyFloat) × Dict String PyFloat × Dict String PyFloat × ℤ :=
  ((s.equity, s.pendingCost), s.baseWeights, s.lastPrices, s.lastProcessedCandle)

section Rebalance

variable {y : CrossSectional} {digest uuid4 env}

lemma keeps_emit (c : Call) : KeepsPart accounts (emit digest env c) := by
  refine .bind (fun w => rfl) fun reply => ?_
  cases reply with
  | dropped => exact .bind (.modifyState fun _ => rfl) fun _ => .pure _
  | _ => exact .pure _

lemma keeps_closeAll (prices : Dict String PyFloat) (cachedClose : String → Option PyFloat)
    (candleOpenMs : ℤ) (book : List (String × OpenPosition)) :
    KeepsPart accounts (y.closeAll digest env prices cachedClose candleOpenMs book) := by
  induction book with
  | nil => exact .pure _
  | cons e book ih => exact .bind .getState fun s => .bind (keeps_emit _) fun _ => ih

lemma keeps_openAll (selection : Selection) (prices : Dict String PyFloat) (candleOpenMs : ℤ)
    (weights : List (String × PyFloat)) :
    KeepsPart accounts (y.openAll digest uuid4 env selection prices candleOpenMs weights) := by
  induction weights with
  | nil => exact .pure _
  | cons e weights ih =>
    refine .bind .getState fun s => .bind (.modifyState fun _ => rfl) fun _ =>
      .bind (fun _ => rfl) fun now => .bind (keeps_emit _) fun reply =>
        .bind (.modifyState fun s => ?_) fun _ => ih
    unfold afterOpen
    split
    · rfl
    · split <;> rfl

/-- A rebalance keeps the equity, the last prices and the bar. When it does not raise, the selected
weights are held, and their turnover is to be paid. -/
lemma applySelection_accounts (selection : Selection) (prices : Dict String PyFloat)
    (candleOpenMs : ℤ) (authoritative : Option Snapshot) (cachedClose : String → Option PyFloat)
    (w : CrossState × Outbox) :
    let r := (y.applySelection digest uuid4 env selection prices candleOpenMs authoritative
      cachedClose).run w
    r.2.1.equity = w.1.equity ∧ r.2.1.lastPrices = w.1.lastPrices ∧
      r.2.1.lastProcessedCandle = w.1.lastProcessedCandle ∧
      (r.1 = .ok () → r.2.1.baseWeights = selection.weights ∧
        r.2.1.pendingCost =
          turnover w.1.baseWeights selection.weights * .fin y.spec.feeBps / 10000) := by
  intro r
  obtain ⟨s, hs⟩ : ∃ s : CrossState, s = { w.1 with
    openPositions := ((authoritative.map Table.rows).getD []).foldl adopt w.1.openPositions } :=
      ⟨_, rfl⟩
  have hadopted : accounts s = accounts w.1 := by rw [hs]; rfl
  have hclosed := @keeps_closeAll digest env y prices cachedClose
    candleOpenMs s.openPositions.rows (s, w.2)
  have hr : r = (y.applySelection digest uuid4 env selection prices candleOpenMs authoritative
    cachedClose).run w := rfl
  unfold applySelection at hr
  rw [Coro.run_bind_ok (run_modifyState _ w), ← hs, Coro.run_bind_ok (run_getState (s, w.2))] at hr
  rcases hclose : (y.closeAll digest env prices cachedClose candleOpenMs s.openPositions.rows).run
    (s, w.2) with ⟨e | ⟨⟩, w'⟩
  · rw [Coro.run_bind_error hclose] at hr
    rw [hclose, hadopted] at hclosed
    simp only [accounts, Prod.mk.injEq] at hclosed
    rw [hr]
    exact ⟨hclosed.1.1, hclosed.2.2.1, hclosed.2.2.2, fun h => by cases h⟩
  · rw [Coro.run_bind_ok hclose, Coro.run_bind_ok (run_modifyState _ w'),
      Coro.run_bind_ok (run_modifyState _ _), Coro.run_bind_ok (run_getState _)] at hr
    rw [hclose, hadopted] at hclosed
    simp only [accounts, Prod.mk.injEq] at hclosed
    obtain ⟨⟨hequity, -⟩, hbase, hlast, hbar⟩ := hclosed
    have hcost : turnover w'.1.baseWeights selection.weights * .fin y.spec.feeBps / 10000 =
        turnover w.1.baseWeights selection.weights * .fin y.spec.feeBps / 10000 := by
      rw [hbase]
    have hkept : accounts r.2.1 = ((w'.1.equity,
        turnover w'.1.baseWeights selection.weights * .fin y.spec.feeBps / 10000),
        selection.weights, w'.1.lastPrices, w'.1.lastProcessedCandle) := by
      rw [hr]
      split
      · rfl
      · exact keeps_openAll selection prices candleOpenMs _ _
    simp only [accounts, Prod.mk.injEq] at hkept
    obtain ⟨⟨hequity', hcost'⟩, hbase', hlast', hbar'⟩ := hkept
    exact ⟨hequity'.trans hequity, hlast'.trans hlast, hbar'.trans hbar, fun _ =>
      ⟨hbase', hcost'.trans hcost⟩⟩

end Rebalance

/-! ## What a scan does -/

variable {x digest uuid4 env} {i : ScanReads} {prices : Dict String PyFloat} {latest tfMs : ℤ}
  {w : ScanWorld}

lemma publishTargetBook_frame (selection : Selection) (w : ScanWorld) :
    (x.publishTargetBook i selection prices latest w).2.state = w.state ∧
      (x.publishTargetBook i selection prices latest w).2.shadowEquity = w.shadowEquity := by
  unfold publishTargetBook
  dsimp only
  split_ifs <;> exact ⟨rfl, rfl⟩

variable (x digest uuid4 env i prices latest) in
/-- A book that is applied keeps the equity, the last prices and the bar. -/
lemma apply_frame (selection : Selection) (w : ScanWorld) :
    (x.apply digest uuid4 env i selection prices latest w).2.state.equity = w.state.equity ∧
      (x.apply digest uuid4 env i selection prices latest w).2.state.lastPrices =
        w.state.lastPrices ∧
      (x.apply digest uuid4 env i selection prices latest w).2.state.lastProcessedCandle =
        w.state.lastProcessedCandle ∧
      (x.apply digest uuid4 env i selection prices latest w).2.shadowEquity = w.shadowEquity := by
  unfold apply
  split
  · obtain ⟨hstate, hshadow⟩ := @publishTargetBook_frame x i prices latest selection
      { w with state := { w.state with baseWeights := selection.weights } }
    rw [hstate, hshadow]
    exact ⟨rfl, rfl, rfl, rfl⟩
  · obtain ⟨hequity, hlast, hbar, -⟩ := @applySelection_accounts digest uuid4 env x.toCrossSectional
      selection prices latest i.authoritative
      i.cachedClose (w.state, w.outbox)
    exact ⟨hequity, hlast, hbar, rfl⟩

lemma select_applied {selection : Selection}
    (hselect : i.select (currentDrawdown w.state) = .ok selection)
    (haudit : i.audit selection = true)
    (happly : (x.apply digest uuid4 env i selection prices latest w).1 = .ok ()) :
    x.select digest uuid4 env i prices latest w = (.ok (.applied latest),
      advance prices latest (x.apply digest uuid4 env i selection prices latest w).2) := by
  unfold select
  rw [hselect]
  dsimp only
  rw [if_pos haudit]
  generalize x.apply digest uuid4 env i selection prices latest w = p at happly
  obtain ⟨r, w'⟩ := p
  cases happly
  rfl

/-- A selection that does not raise has been applied. -/
lemma select_ok {r : ScanEnd} (h : (x.select digest uuid4 env i prices latest w).1 = .ok r) :
    ∃ selection, i.select (currentDrawdown w.state) = .ok selection ∧
      i.audit selection = true ∧
      (x.apply digest uuid4 env i selection prices latest w).1 = .ok () := by
  unfold select at h
  cases hselect : i.select (currentDrawdown w.state) with
  | error e =>
    rw [hselect] at h
    cases h
  | ok selection =>
    rw [hselect] at h
    refine ⟨selection, rfl, ?_⟩
    dsimp only at h
    split at h
    · rename_i haudit
      refine ⟨haudit, ?_⟩
      generalize x.apply digest uuid4 env i selection prices latest w = p at h
      obtain ⟨_ | ⟨⟩, w'⟩ := p
      · cases h
      · rfl
    · cases h

variable (x) in
/-- The scan has a bar that is newer than the last one. -/
structure NewBar (i : ScanReads) (w : ScanWorld) (bundle : PanelBundle) (tfMs : ℤ) : Prop where
  panel : i.bundle = .ok (some bundle)
  tf : tfToMs x.spec.timeframe = some tfMs
  new : w.state.lastProcessedCandle < scanned i bundle tfMs

/-- A state after the mark of a bar. -/
abbrev markedWorld (x : Scanner) (i : ScanReads) (w : ScanWorld) (bundle : PanelBundle) : ScanWorld :=
  x.recordPortfolioReturn i bundle.prices w

variable (x digest uuid4 env i w) in
/-- What a scan can do. -/
inductive ScanStep : Except ScanError ScanEnd → ScanWorld → Prop
  /-- it ends before the mark -/
  | idle (r) (h : ∀ e, r = .ok e → e.processed = false) : ScanStep r w
  /-- the bar is not due -/
  | passed {bundle tfMs} (h : x.NewBar i w bundle tfMs)
      (hdue : x.due (scanned i bundle tfMs) tfMs = some false) {r}
      (hr : r = .gated ∨ r = .notDue) : ScanStep (.ok r)
        (advance bundle.prices (scanned i bundle tfMs) (x.markedWorld i w bundle))
  /-- it raises between the mark and `_apply_selection` -/
  | raised {bundle tfMs} (h : x.NewBar i w bundle tfMs) (e) :
      ScanStep (.error e) (x.markedWorld i w bundle)
  | applyRaised {bundle tfMs} (h : x.NewBar i w bundle tfMs) {selection e w'}
      (happly : x.apply digest uuid4 env i selection bundle.prices (scanned i bundle tfMs)
        (x.markedWorld i w bundle) = (.error e, w')) : ScanStep (.error e) w'
  | applied {bundle tfMs} (h : x.NewBar i w bundle tfMs) {selection w'}
      (hselect : i.select (currentDrawdown (x.markedWorld i w bundle).state) = .ok selection)
      (happly : x.apply digest uuid4 env i selection bundle.prices (scanned i bundle tfMs)
        (x.markedWorld i w bundle) = (.ok (), w')) :
      ScanStep (.ok (.applied (scanned i bundle tfMs)))
        (advance bundle.prices (scanned i bundle tfMs) w')

lemma select_cases {bundle : PanelBundle} (h : x.NewBar i w bundle tfMs) :
    x.ScanStep digest uuid4 env i w
      (x.select digest uuid4 env i bundle.prices (scanned i bundle tfMs) (x.markedWorld i w bundle)).1
      (x.select digest uuid4 env i bundle.prices (scanned i bundle tfMs)
        (x.markedWorld i w bundle)).2 := by
  unfold select
  cases hselect : i.select (currentDrawdown (x.markedWorld i w bundle).state) with
  | error e => exact .raised h e
  | ok selection =>
    dsimp only
    split
    · rcases happly : x.apply digest uuid4 env i selection bundle.prices (scanned i bundle tfMs)
        (x.markedWorld i w bundle) with ⟨_ | ⟨⟩, w'⟩
      · exact .applyRaised h happly
      · exact .applied h hselect happly
    · exact .raised h .audit

variable (x digest uuid4 env) in
theorem scan_cases (i : ScanReads) (w : ScanWorld) :
    x.ScanStep digest uuid4 env i w (x.scan digest uuid4 env i w).1
      (x.scan digest uuid4 env i w).2 := by
  unfold scan
  split
  · exact .idle _ fun e h => by cases h; rfl
  · split
    · exact .idle _ fun e h => by cases h
    · exact .idle _ fun e h => by cases h; rfl
    · exact .idle _ fun e h => by cases h
    · rename_i bundle tfMs hbundle htf
      dsimp only
      split
      · exact .idle _ fun e h => by cases h; rfl
      · rename_i hnew
        have h : x.NewBar i w bundle tfMs := ⟨hbundle, htf, not_le.mp hnew⟩
        unfold process
        dsimp only
        split
        · rename_i hgate
          rw [Bool.and_eq_true, Bool.not_eq_true'] at hgate
          refine .passed h ?_ (.inl rfl)
          unfold due
          rw [hgate.1]
          exact not_due_of_gated hgate.2
        · cases hdue : x.due (scanned i bundle tfMs) tfMs with
          | none => exact .raised h _
          | some isRebalance =>
            dsimp only
            split
            · rename_i hskip
              rw [Bool.and_eq_true, Bool.not_eq_true'] at hskip
              refine .passed h ?_ (.inr rfl)
              rw [hdue, hskip.1]
            · exact select_cases h

end Scan

/-! ## Sleeves -/

/-- The first process of an alpha: nothing has been published. -/
def newAlpha (o : Outbox) (b : Boot) : ScanWorld :=
  warmUp b { state := { openPositions := b.openPositions, runtime := b.runtime }, outbox := o }

/-- A sleeve on hourly bars that publishes a new book every `rebalanceBars` bars. -/
def sleeve (rebalanceBars : ℤ) : Scanner where
  alphaId := "sleeve"
  version := "v1"
  spec := { alphaId := "sleeve", timeframe := "1h", signal := "momentum", bookOnly := true
            rebalanceBars := rebalanceBars }

/-- All on one symbol. -/
def allOnBtc : Selection where
  longs := ["BTC"]
  weights := Dict.set .empty "BTC" 1
  gross := 1
  net := 1

/-- The scan of a bar with a close. -/
def sleeveScan (bar : ℤ) (close : ℚ) : ScanReads where
  bundle := .ok (some ⟨bar * 3600000, [("BTC", [.fin close])]⟩)
  cacheLatest := bar * 3600000
  select _ := .ok allOnBtc
  audit _ := true

/-- The sleeve, from the first bar on. -/
def sleeveRun (rebalanceBars : ℤ) (events : List ScanEvent) : ScanWorld :=
  (sleeve rebalanceBars).run (fun _ => "") (fun _ => "") (fun _ => { now := "t" })
    (newAlpha { dispatcher := {} } { warm := some 0 }) events

end Scanner

end PaperTrade.Runner
