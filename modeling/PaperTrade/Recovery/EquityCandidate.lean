import PaperTrade.Recovery.Merge
import PaperTrade.Runtime.Folds
import PaperTrade.Runtime.Isoformat

/-!
# The equity candidate

`build_equity_candidate` rewrites the snapshots of the affected alphas from the first event of a ledger
onward: for every timestamp the trades that are closed by then and the positions that are open at it
give the figures of each alpha, and the total row becomes the sum of the rows of its timestamp.
`validate_candidates` later reads the same database: the formula of a balance, and the totals.

An affected alpha is named `__TOTAL__` by nobody, and the timestamps are those of `isoformat()`; then
what is built passes both checks, and it can always be merged.
-/

namespace PaperTrade.Recovery

open PaperTrade.Runtime PaperTrade.Worker

/-! ## Lifecycles -/

/-- What stops the build. -/
inductive EquityError
  /-- `equity price missing for … at …` -/
  | priceMissing (symbol : String)
  /-- `'…' is not a valid Side` -/
  | invalidSide (side : String)
  /-- anything else that Python or a constraint raises -/
  | python (e : PyError)

/-- An operation of Python inside the build. -/
def pythonic {α : Type} (x : Except PyError α) : Except EquityError α := x.mapError .python

/-- `Side(value)`. -/
def parseSide (value : String) : Except EquityError Side :=
  if value = "LONG" then .ok .long
  else if value = "SHORT" then .ok .short
  else .error (.invalidSide value)

structure PositionInterval where
  alphaId : String
  symbol : String
  side : Side
  entryPrice : PyFloat
  qty : PyFloat
  feePct : PyFloat
  openedAt : DateTime
  closedAt : Option DateTime

/-- `closed_at <= timestamp`. -/
def notAfter (a b : DateTime) : Except EquityError Bool :=
  match b.sub? a with
  | some us => .ok (0 ≤ us)
  | none => .error (.python .naiveAndAware)

/-- The lifecycle and the realized PnL of a row of `trades`. -/
def tradeLifecycle (t : TradeRow) :
    Except EquityError (PositionInterval × DateTime × PyFloat) := do
  let entryPrice ← pythonic (need t.entryPrice)
  let exitPrice ← pythonic (need t.exitPrice)
  let qty ← pythonic (need t.qty)
  let denominator := (entryPrice + exitPrice) * qty
  let feePct := if denominator.truthy then t.fee.getD 0 / denominator else 0
  let closedAt ← pythonic (isoTime t.closedAt)
  let side ← parseSide t.side
  let openedAt ← pythonic (isoTime t.openedAt)
  pure (⟨t.alphaId, t.symbol, side, entryPrice, qty, feePct, openedAt, some closedAt⟩,
    closedAt, t.pnl.getD 0)

/-- The lifecycle of a row of `positions`. -/
def positionLifecycle (p : PositionRow) : Except EquityError PositionInterval := do
  let side ← parseSide p.side
  let entryPrice ← pythonic (need p.entryPrice)
  let qty ← pythonic (need p.qty)
  let openedAt ← pythonic (isoTime p.openedAt)
  pure ⟨p.alphaId, p.symbol, side, entryPrice, qty, p.feePct.getD 0, openedAt, none⟩

/-- The lifecycles of the affected alphas, and what their trades have booked. -/
structure Lifecycles where
  intervals : List PositionInterval
  realized : List (String × DateTime × PyFloat)

/-- `_load_lifecycles`. -/
def loadLifecycles (candidateMain : MainDb) (affected : List String) :
    Except EquityError Lifecycles := do
  let own := candidateMain.trades.rows.filter fun t => t.alphaId ∈ affected
  let closed ← own.mapM tradeLifecycle
  let held ← (candidateMain.positions.rows.filter fun p => p.alphaId ∈ affected).mapM
    positionLifecycle
  pure ⟨closed.map Prod.fst ++ held, closed.map fun c => (c.1.alphaId, c.2)⟩

/-- `_position_pnl`. -/
def intervalPnl (p : PositionInterval) (currentPrice : PyFloat) : PyFloat :=
  let gross := (currentPrice - p.entryPrice) * p.qty * sideDirection p.side
  let fee := (p.entryPrice + currentPrice) * p.qty * p.feePct
  gross - fee

/-! ## Prices -/

/-- The captured closes of a symbol, the earliest first. -/
structure PriceSeries where
  rows : List (ℤ × PyFloat)
  sorted : (rows.map Prod.fst).Pairwise (· ≤ ·)

/-- What the build takes from outside. -/
structure EquityInputs where
  prices : String → PriceSeries
  /-- `config.capital` -/
  capitals : Dict String PyFloat
  /-- `int(d.timestamp() * 1000)` of a time without a zone -/
  localMs : DateTime → ℤ

namespace EquityInputs

variable (inputs : EquityInputs)

/-- `int(d.timestamp() * 1000)`. -/
def epochMs (d : DateTime) : ℤ :=
  if d.isAware then (d.instant - 62135596800000000).tdiv 1000 else inputs.localMs d

/-- `PriceArchive.at_or_before`; `prices[bisect_right(times, target) - 1]` is the last row at or before
the target. -/
def atOrBefore (symbol : String) (timestamp : DateTime) : Except EquityError PyFloat :=
  let before := { timestamp with wall := timestamp.wall - 15 * DateTime.minute }
  let targetMs := inputs.epochMs before
  if before.wall < 0 then .error (.python .dateOverflow)
  else match ((inputs.prices symbol).rows.filter fun row => row.1 ≤ targetMs).getLast? with
  | some row => .ok row.2
  | none => .error (.priceMissing symbol)

/-- `capitals.get(alpha_id, 10_000.0)`. -/
def capital (alphaId : String) : PyFloat := (inputs.capitals.get? alphaId).getD (.fin 10000)

end EquityInputs

/-! ## Figures -/

section Figures

variable (inputs : EquityInputs) (lifecycles : Lifecycles)

/-- `real`: what the trades that are closed by then have booked. -/
def realizedAt (alphaId : String) (timestamp : DateTime) : Except EquityError PyFloat :=
  (lifecycles.realized.filter fun r => r.1 = alphaId).foldlM (fun sum r => do
    let closed ← notAfter r.2.1 timestamp
    pure (if closed then sum + r.2.2 else sum)) 0

/-- `position.closed_at is None or position.closed_at > timestamp`. -/
def stillOpen (closedAt : Option DateTime) (timestamp : DateTime) : Except EquityError Bool :=
  match closedAt with
  | none => .ok true
  | some closedAt => (notAfter closedAt timestamp).map not

/-- `unreal`: the marks of the positions that are open then. -/
def unrealizedAt (alphaId : String) (timestamp : DateTime) : Except EquityError PyFloat :=
  (lifecycles.intervals.filter fun p => p.alphaId = alphaId).foldlM (fun sum p => do
    let opened ← notAfter p.openedAt timestamp
    if opened then
      let holding ← stillOpen p.closedAt timestamp
      if holding then
        let price ← inputs.atOrBefore p.symbol timestamp
        pure (sum + intervalPnl p price)
      else pure sum
    else pure sum) 0

/-! ## The rewriting -/

/-- `UPDATE equity_snapshots SET … WHERE alpha_id = ? AND timestamp = ?`. -/
def setFigures (alphaId timestamp : String) (balance unrealized realized : PyFloat)
    (rows : Table EquitySnapshotRow.id) : Except EquityError (Table EquitySnapshotRow.id) :=
  if rows.rows.any fun r => r.alphaId = alphaId ∧ r.timestamp = timestamp then
    match real balance with
    | none => .error (.python (.notNullFailed "equity_snapshots.balance"))
    | some balance => .ok (rows.update
        (fun r => if r.alphaId = alphaId ∧ r.timestamp = timestamp then
          { r with balance, unrealizedPnl := real unrealized, realizedPnl := real realized } else r)
        fun r => by split <;> rfl)
  else .ok rows

/-- The figures of an alpha at a timestamp. -/
def rewriteAlpha (timestamp : DateTime) (rows : Table EquitySnapshotRow.id) (alphaId : String) :
    Except EquityError (Table EquitySnapshotRow.id) := do
  let realized ← realizedAt lifecycles alphaId timestamp
  let unrealized ← unrealizedAt inputs lifecycles alphaId timestamp
  setFigures alphaId timestamp.isoformat (inputs.capital alphaId + realized + unrealized) unrealized
    realized rows

/-- The rows that a total sums up. -/
def itemsAt (rows : List EquitySnapshotRow) (timestamp : String) : List EquitySnapshotRow :=
  rows.filter fun r => r.timestamp = timestamp ∧ r.alphaId ≠ totalKey

/-- `SELECT COALESCE(SUM(…), 0) … WHERE timestamp = ? AND alpha_id != '__TOTAL__'`. -/
def totalOf (rows : List EquitySnapshotRow) (timestamp : String)
    (value : EquitySnapshotRow → Option PyFloat) : PyFloat :=
  (sqlSum ((itemsAt rows timestamp).map value)).getD 0

/-- The total at a timestamp. -/
def rewriteTotal (timestamp : String) (rows : Table EquitySnapshotRow.id) :
    Except EquityError (Table EquitySnapshotRow.id) :=
  setFigures totalKey timestamp (totalOf rows.rows timestamp fun r => some r.balance)
    (totalOf rows.rows timestamp fun r => r.unrealizedPnl)
    (totalOf rows.rows timestamp fun r => r.realizedPnl) rows

/-- One pass of the loop over the timestamps. -/
def rewriteTimestamp (affected : List String) (rows : Table EquitySnapshotRow.id)
    (timestamp : DateTime) : Except EquityError (Table EquitySnapshotRow.id) := do
  let rows ← affected.foldlM (rewriteAlpha inputs lifecycles timestamp) rows
  rewriteTotal timestamp.isoformat rows

end Figures

/-- `{entry.alpha_id for entry in ledger}`. -/
def affectedAlphas (ledger : List LedgerEntry) : List String :=
  (ledger.map LedgerEntry.alphaId).dedup

/-- `min(entry.event_at for entry in ledger)`. -/
def firstEvent : List LedgerEntry → Except EquityError (Option EventTime)
  | [] => .ok none
  | entry :: ledger => (ledger.foldlM (fun (first : EventTime) (entry : LedgerEntry) => do
      let keep ← notAfter first.time entry.eventAt.time
      pure (if keep then first else entry.eventAt)) entry.eventAt).map some

/-- `SELECT DISTINCT timestamp … WHERE timestamp >= ? ORDER BY timestamp`. -/
def timestampsFrom (rows : List EquitySnapshotRow) (start : String) : List String :=
  (((rows.map fun r => r.timestamp).filter fun t => ¬ t < start).dedup).insertionSort (· ≤ ·)

/-- `build_equity_candidate`. -/
def buildEquityCandidate (inputs : EquityInputs) (candidateMain : MainDb)
    (ledger : List LedgerEntry) (baseline : EquityTable) : Except EquityError EquityTable := do
  let affected := affectedAlphas ledger
  match ← firstEvent ledger with
  | none => pure baseline
  | some start =>
    let lifecycles ← loadLifecycles candidateMain affected
    let timestamps ← (timestampsFrom baseline.rows.rows start.isoformat).mapM fun t =>
      pythonic (isoTime t)
    let rows ← timestamps.foldlM (rewriteTimestamp inputs lifecycles affected) baseline.rows
    pure { baseline with rows := rows }

/-! ## Validation -/

/-- `ABS(x) > 0.000001`; a NULL is no failure. -/
def exceeds (x : Option PyFloat) : Bool :=
  match x with
  | none => false
  | some x => (real x).any fun x => .fin (1 / 1000000) < x.abs

/-- `_equity_formula_check`: a row that fails. -/
def formulaFails (inputs : EquityInputs) (alphaId start : String) (r : EquitySnapshotRow) : Bool :=
  r.alphaId = alphaId && !(r.timestamp < start) && exceeds (do
    let realized ← r.realizedPnl
    let unrealized ← r.unrealizedPnl
    let withoutCapital ← real (r.balance - inputs.capital alphaId)
    let withoutRealized ← real (withoutCapital - realized)
    pure (withoutRealized - unrealized))

/-- `_equity_formula_check`. -/
def equityFormulaCheck (inputs : EquityInputs) (ledger : List LedgerEntry) (start : String)
    (equity : EquityTable) : Bool :=
  (affectedAlphas ledger).all fun alphaId =>
    equity.rows.rows.all fun r => !formulaFails inputs alphaId start r

/-- `_total_equity_check`: a total that fails. -/
def totalFails (rows : List EquitySnapshotRow) (start : String) (r : EquitySnapshotRow) : Bool :=
  r.alphaId = totalKey && !(r.timestamp < start) &&
    exceeds (some (r.balance - totalOf rows r.timestamp fun r => some r.balance))

/-- `_total_equity_check`. -/
def totalEquityCheck (start : String) (equity : EquityTable) : Bool :=
  equity.rows.rows.all fun r => !totalFails equity.rows.rows start r

/-- The two checks of `validate_candidates` on the figures; without a ledger both pass. -/
def validateEquity (inputs : EquityInputs) (ledger : List LedgerEntry) (equity : EquityTable) :
    Except EquityError Bool := do
  match ← firstEvent ledger with
  | none => pure true
  | some start =>
    pure (equityFormulaCheck inputs ledger start.isoformat equity &&
      totalEquityCheck start.isoformat equity)

/-! # What is built is valid

The build only overwrites figures, and every pass of its loops only those of one alpha at one timestamp
(`RewritesOnly`). So what a pass establishes stays: the formula of a balance for every affected alpha,
and the total of every timestamp. -/

/-! ## Rewriting figures -/

section Rewrites

/-- The rows are the same but for figures of rows that `p` allows, by alpha and timestamp. -/
def RewritesOnly (p : String → String → Prop) (rows rows' : Table EquitySnapshotRow.id) : Prop :=
  ∃ f : EquitySnapshotRow → EquitySnapshotRow, rows'.rows = rows.rows.map f ∧
    ∀ r, r.withFigures (f r) = f r ∧ (¬ p r.alphaId r.timestamp → f r = r)

variable {p q : String → String → Prop} {rows rows' rows'' : Table EquitySnapshotRow.id}

lemma RewritesOnly.refl (p : String → String → Prop) (rows : Table EquitySnapshotRow.id) :
    RewritesOnly p rows rows :=
  ⟨id, (List.map_id rows.rows).symm, fun _ => ⟨rfl, fun _ => rfl⟩⟩

lemma RewritesOnly.trans (h : RewritesOnly p rows rows') (h' : RewritesOnly p rows' rows'') :
    RewritesOnly p rows rows'' := by
  obtain ⟨f, hrows, hf⟩ := h
  obtain ⟨g, hrows', hg⟩ := h'
  refine ⟨g ∘ f, by rw [hrows', hrows, List.map_map], fun r => ⟨?_, fun hp => ?_⟩⟩
  · calc r.withFigures (g (f r)) = (r.withFigures (f r)).withFigures (g (f r)) := rfl
      _ = (f r).withFigures (g (f r)) := by rw [(hf r).1]
      _ = g (f r) := (hg (f r)).1
  · rw [Function.comp_apply, (hf r).2 hp]
    exact (hg r).2 hp

lemma RewritesOnly.mono (h : RewritesOnly p rows rows') (hpq : ∀ a t, p a t → q a t) :
    RewritesOnly q rows rows' := by
  obtain ⟨f, hrows, hf⟩ := h
  exact ⟨f, hrows, fun r => ⟨(hf r).1, fun hq => (hf r).2 fun hp => hq (hpq _ _ hp)⟩⟩

/-- A row comes from one of the same alpha and timestamp. -/
lemma RewritesOnly.origin (h : RewritesOnly p rows rows') {r : EquitySnapshotRow}
    (hr : r ∈ rows'.rows) : ∃ r₀ ∈ rows.rows, r₀.withFigures r = r := by
  obtain ⟨f, hrows, hf⟩ := h
  rw [hrows] at hr
  obtain ⟨r₀, hr₀, rfl⟩ := List.mem_map.mp hr
  exact ⟨r₀, hr₀, (hf r₀).1⟩

/-- A row that may not be touched is one that was there. -/
lemma RewritesOnly.of_forbidden (h : RewritesOnly p rows rows') {r : EquitySnapshotRow}
    (hr : r ∈ rows'.rows) (hp : ¬ p r.alphaId r.timestamp) : r ∈ rows.rows := by
  obtain ⟨f, hrows, hf⟩ := h
  rw [hrows] at hr
  obtain ⟨r₀, hr₀, rfl⟩ := List.mem_map.mp hr
  have hterms := (hf r₀).1
  have hp₀ : ¬ p r₀.alphaId r₀.timestamp := by
    rw [← hterms] at hp
    exact hp
  rw [(hf r₀).2 hp₀]
  exact hr₀

/-- The items of a total that may not be touched. -/
lemma RewritesOnly.itemsAt (h : RewritesOnly p rows rows') {t : String}
    (hp : ∀ a, p a t → a = totalKey) : itemsAt rows'.rows t = itemsAt rows.rows t := by
  obtain ⟨f, hrows, hf⟩ := h
  have hterms : ∀ r, (f r).timestamp = r.timestamp ∧ (f r).alphaId = r.alphaId := fun r => by
    rw [← (hf r).1]
    exact ⟨rfl, rfl⟩
  have hfilter : ((fun r : EquitySnapshotRow => decide (r.timestamp = t ∧ r.alphaId ≠ totalKey)) ∘ f) =
      fun r => decide (r.timestamp = t ∧ r.alphaId ≠ totalKey) := by
    funext r
    rw [Function.comp_apply, (hterms r).1, (hterms r).2]
  have hsame : ∀ r ∈ Recovery.itemsAt rows.rows t, f r = r := by
    intro r hr
    obtain ⟨htime, hitem⟩ := of_decide_eq_true (List.mem_filter.mp hr).2
    refine (hf r).2 fun hallowed => hitem (hp _ ?_)
    rwa [htime] at hallowed
  unfold Recovery.itemsAt at hsame ⊢
  rw [hrows, List.filter_map, hfilter]
  exact (List.map_congr_left hsame).trans (List.map_id _)

end Rewrites

/-! ## One statement -/

section Statement

variable {rows rows' : Table EquitySnapshotRow.id} {alphaId timestamp : String}
  {balance unrealized realized : PyFloat}

/-- An `UPDATE` touches the rows of its alpha and timestamp, and gives them its figures. -/
lemma setFigures_ok (h : setFigures alphaId timestamp balance unrealized realized rows = .ok rows') :
    RewritesOnly (fun a t => a = alphaId ∧ t = timestamp) rows rows' ∧
      ∀ r ∈ rows'.rows, r.alphaId = alphaId → r.timestamp = timestamp →
        real balance = some r.balance ∧ r.unrealizedPnl = real unrealized ∧
          r.realizedPnl = real realized := by
  unfold setFigures at h
  split at h
  · cases hbalance : real balance with
    | none =>
      rw [hbalance] at h
      cases h
    | some stored =>
      rw [hbalance] at h
      cases h
      refine ⟨⟨_, rfl, fun r => ⟨?_, fun hp => if_neg hp⟩⟩, fun r hr halpha htime => ?_⟩
      · split <;> rfl
      · obtain ⟨r₀, -, rfl⟩ := List.mem_map.mp hr
        by_cases hmatch : r₀.alphaId = alphaId ∧ r₀.timestamp = timestamp
        · rw [if_pos hmatch]
          exact ⟨rfl, rfl, rfl⟩
        · rw [if_neg hmatch] at halpha htime
          exact absurd ⟨halpha, htime⟩ hmatch
  · rename_i hnone
    cases h
    refine ⟨RewritesOnly.refl _ _, fun r hr halpha htime => ?_⟩
    refine absurd (List.any_eq_true.mpr ⟨r, hr, ?_⟩) hnone
    exact decide_eq_true ⟨halpha, htime⟩

end Statement

/-! ## The formula of a balance -/

/-- The balance of a row is the capital with its figures. -/
def FormulaHolds (inputs : EquityInputs) (r : EquitySnapshotRow) : Prop :=
  ∃ realized unrealized : PyFloat,
    real (inputs.capital r.alphaId + realized + unrealized) = some r.balance ∧
      r.unrealizedPnl = real unrealized ∧ r.realizedPnl = real realized

/-- What is subtracted again leaves zero, or no number. -/
lemma not_exceeds_figures {capital realized unrealized balance : PyFloat}
    (h : real (capital + realized + unrealized) = some balance) :
    exceeds (do
      let realized ← real realized
      let unrealized ← real unrealized
      let withoutCapital ← real (balance - capital)
      let withoutRealized ← real (withoutCapital - realized)
      pure (withoutRealized - unrealized)) = false := by
  rcases capital with _ | (_ | _) | c <;> rcases realized with _ | (_ | _) | r <;>
    rcases unrealized with _ | (_ | _) | u <;> cases h <;> try rfl
  -- three numbers
  have hzero : c + r + u - c - r - u = 0 := by ring
  simp [exceeds, hzero]

/-- A row whose balance is the formula does not fail the check. -/
lemma formulaFails_eq_false {inputs : EquityInputs} {r : EquitySnapshotRow}
    (h : FormulaHolds inputs r) (start : String) : formulaFails inputs r.alphaId start r = false := by
  obtain ⟨realized, unrealized, hbalance, hunrealized, hrealized⟩ := h
  have hfigures := not_exceeds_figures hbalance
  unfold formulaFails
  rw [hunrealized, hrealized, hfigures, Bool.and_false]

/-! ## The total of a timestamp -/

/-- The totals of a timestamp are the sums of its rows. -/
def TotalHolds (rows : List EquitySnapshotRow) (t : String) : Prop :=
  ∀ r ∈ rows, r.alphaId = totalKey → r.timestamp = t →
    real (totalOf rows t fun r => some r.balance) = some r.balance

/-- A number taken from itself leaves zero, or no number. -/
lemma not_exceeds_self {x balance : PyFloat} (h : real x = some balance) :
    exceeds (some (balance - x)) = false := by
  rcases x with _ | (_ | _) | q <;> cases h <;> try rfl
  simp [exceeds]

lemma totalFails_eq_false {rows : List EquitySnapshotRow} {r : EquitySnapshotRow} (hr : r ∈ rows)
    (h : TotalHolds rows r.timestamp) (start : String) : totalFails rows start r = false := by
  unfold totalFails
  by_cases htotal : r.alphaId = totalKey
  · rw [not_exceeds_self (h r hr htotal rfl), Bool.and_false]
  · simp [htotal]

/-! ## The passes -/

section Passes

variable {inputs : EquityInputs} {lifecycles : Lifecycles} {timestamp : DateTime}
  {rows rows' : Table EquitySnapshotRow.id} {affected : List String}

/-- The rows of an alpha at a timestamp have its formula. -/
def AlphaHolds (inputs : EquityInputs) (t alphaId : String) (rows : Table EquitySnapshotRow.id) :
    Prop :=
  ∀ r ∈ rows.rows, r.alphaId = alphaId → r.timestamp = t → FormulaHolds inputs r

lemma rewriteAlpha_ok {alphaId : String}
    (h : rewriteAlpha inputs lifecycles timestamp rows alphaId = .ok rows') :
    RewritesOnly (fun a t => a = alphaId ∧ t = timestamp.isoformat) rows rows' ∧
      AlphaHolds inputs timestamp.isoformat alphaId rows' := by
  obtain ⟨realized, -, h⟩ := bind_eq_ok h
  obtain ⟨unrealized, -, h⟩ := bind_eq_ok h
  obtain ⟨honly, hfigures⟩ := setFigures_ok h
  refine ⟨honly, fun r hr halpha htime => ⟨realized, unrealized, ?_⟩⟩
  rw [halpha]
  exact hfigures r hr halpha htime

lemma rewriteTotal_ok {t : String} (h : rewriteTotal t rows = .ok rows') :
    RewritesOnly (fun a t' => a = totalKey ∧ t' = t) rows rows' ∧ TotalHolds rows'.rows t := by
  obtain ⟨honly, hfigures⟩ := setFigures_ok h
  have hitems : itemsAt rows'.rows t = itemsAt rows.rows t := honly.itemsAt fun a ha => ha.1
  refine ⟨honly, fun r hr htotal htime => ?_⟩
  rw [totalOf, hitems]
  exact (hfigures r hr htotal htime).1

/-- The rows of an alpha that is not rewritten keep its formula. -/
lemma AlphaHolds.keep {p : String → String → Prop} {t alphaId : String}
    (h : AlphaHolds inputs t alphaId rows) (honly : RewritesOnly p rows rows')
    (hp : ¬ p alphaId t) : AlphaHolds inputs t alphaId rows' := by
  intro r hr halpha htime
  refine h r (honly.of_forbidden hr ?_) halpha htime
  rwa [halpha, htime]

/-- A pass over the timestamps touches no other timestamp, and leaves the formula of every affected
alpha and the total. -/
lemma rewriteTimestamp_ok (hnodup : affected.Nodup) (htotal : totalKey ∉ affected)
    (h : rewriteTimestamp inputs lifecycles affected rows timestamp = .ok rows') :
    RewritesOnly (fun _ t => t = timestamp.isoformat) rows rows' ∧
      (∀ a ∈ affected, AlphaHolds inputs timestamp.isoformat a rows') ∧
      TotalHolds rows'.rows timestamp.isoformat := by
  obtain ⟨mid, halphas, h⟩ := bind_eq_ok h
  obtain ⟨honlyTotal, hsum⟩ := rewriteTotal_ok h
  have honly : RewritesOnly (fun _ t => t = timestamp.isoformat) rows mid := by
    refine foldlM_keeps (P := RewritesOnly _ rows) (fun a _ s s' hstep hs => hs.trans ?_) halphas
      (RewritesOnly.refl _ _)
    exact (rewriteAlpha_ok hstep).1.mono fun _ _ hp => hp.2
  have hholds := foldlM_establishes (P := AlphaHolds inputs timestamp.isoformat) hnodup
    (fun a _ s s' hstep => (rewriteAlpha_ok hstep).2)
    (fun a _ b _ hne s s' hstep hs => hs.keep (rewriteAlpha_ok hstep).1 fun hp => hne hp.1.symm)
    halphas
  refine ⟨honly.trans (honlyTotal.mono fun _ _ hp => hp.2), fun a ha => ?_, hsum⟩
  refine (hholds a ha).keep honlyTotal fun hp => htotal ?_
  rwa [← hp.1]

end Passes

/-! ## The build -/

section Build

variable {inputs : EquityInputs} {candidateMain : MainDb} {ledger : List LedgerEntry}
  {baseline candidate production : EquityTable}

lemma TotalHolds.keep {p : String → String → Prop} {t : String}
    {rows rows' : Table EquitySnapshotRow.id} (h : TotalHolds rows.rows t)
    (honly : RewritesOnly p rows rows') (hp : ∀ a, ¬ p a t) : TotalHolds rows'.rows t := by
  have hitems : itemsAt rows'.rows t = itemsAt rows.rows t :=
    honly.itemsAt fun a ha => absurd ha (hp a)
  intro r hr htotal htime
  rw [totalOf, hitems]
  refine h r (honly.of_forbidden hr ?_) htotal htime
  rw [htime]
  exact hp _

/-- The timestamps of a database, as they are read and written again. -/
lemma isoformat_timestamps {texts : List String} {times : List DateTime}
    (hcanonical : ∀ t ∈ texts, ∀ d, DateTime.parse t = some d → d.isoformat = t)
    (h : (texts.mapM fun t => pythonic (isoTime t)) = .ok times) :
    times.map DateTime.isoformat = texts := by
  induction texts generalizing times with
  | nil =>
    cases h
    rfl
  | cons t texts ih =>
    obtain ⟨hfirst, hrest⟩ := List.forall_mem_cons.mp hcanonical
    rw [List.mapM_cons] at h
    obtain ⟨d, hd, h⟩ := bind_eq_ok h
    obtain ⟨ds, hds, h⟩ := bind_eq_ok h
    cases h
    have hparse : DateTime.parse t = some d := by
      unfold pythonic isoTime at hd
      cases hparse : DateTime.parse t with
      | none =>
        rw [hparse] at hd
        cases hd
      | some d' =>
        rw [hparse] at hd
        cases hd
        rfl
    rw [List.map_cons, hfirst d hparse, ih hrest hds]

/-- The build only rewrites figures. -/
lemma rewritesOnly_build (h : buildEquityCandidate inputs candidateMain ledger baseline = .ok candidate) :
    candidate.columns = baseline.columns ∧
      RewritesOnly (fun _ _ => True) baseline.rows candidate.rows := by
  obtain ⟨first, -, h⟩ := bind_eq_ok h
  cases first with
  | none =>
    cases h
    exact ⟨rfl, RewritesOnly.refl _ _⟩
  | some start =>
    obtain ⟨lifecycles, -, h⟩ := bind_eq_ok h
    obtain ⟨times, -, h⟩ := bind_eq_ok h
    obtain ⟨rows, hrows, h⟩ := bind_eq_ok h
    cases h
    refine ⟨rfl, foldlM_keeps (P := RewritesOnly _ baseline.rows)
      (fun d _ s s' hstep hs => hs.trans ?_) hrows (RewritesOnly.refl _ _)⟩
    obtain ⟨mid, halphas, hstep⟩ := bind_eq_ok hstep
    refine RewritesOnly.trans ?_ ((rewriteTotal_ok hstep).1.mono fun _ _ _ => trivial)
    exact foldlM_keeps (P := RewritesOnly _ s)
      (fun a _ t t' hpass ht => ht.trans ((rewriteAlpha_ok hpass).1.mono fun _ _ _ => trivial))
      halphas (RewritesOnly.refl _ _)

/-- What is built has the snapshots of its baseline. -/
lemma equityMergeable_of_built
    (hbuilt : buildEquityCandidate inputs candidateMain ledger baseline = .ok candidate)
    (hunchanged : production.Same baseline) : EquityMergeable production baseline candidate := by
  obtain ⟨hcolumns, honly⟩ := rewritesOnly_build hbuilt
  refine ⟨hunchanged, hcolumns, fun b hb => ?_, fun c hc => honly.origin hc⟩
  obtain ⟨f, hrows, hf⟩ := honly
  refine ⟨f b, ?_, ?_⟩
  · rw [hrows]
    exact List.mem_map.mpr ⟨b, hb, rfl⟩
  · rw [← (hf b).1]
    rfl

/-- Where no affected alpha has the name of the total and the timestamps are in the form in which they
are written, the candidate that is built passes both checks of its figures. -/
theorem equityCandidate_validates
    (hbuilt : buildEquityCandidate inputs candidateMain ledger baseline = .ok candidate)
    (hnames : ∀ entry ∈ ledger, entry.alphaId ≠ totalKey)
    (hcanonical : ∀ r ∈ baseline.rows.rows, ∀ d, DateTime.parse r.timestamp = some d →
      d.isoformat = r.timestamp) :
    validateEquity inputs ledger candidate = .ok true := by
  have honly := (rewritesOnly_build hbuilt).2
  obtain ⟨first, hfirst, h⟩ := bind_eq_ok hbuilt
  unfold validateEquity
  rw [hfirst]
  cases first with
  | none => rfl
  | some start =>
    obtain ⟨lifecycles, -, h⟩ := bind_eq_ok h
    obtain ⟨times, htimes, h⟩ := bind_eq_ok h
    obtain ⟨rows, hrows, h⟩ := bind_eq_ok h
    cases h
    have htotal : totalKey ∉ affectedAlphas ledger := by
      intro hmem
      obtain ⟨entry, hentry, heq⟩ := List.mem_map.mp (List.mem_dedup.mp hmem)
      exact hnames entry hentry heq
    have htexts : ∀ t, t ∈ timestampsFrom baseline.rows.rows start.isoformat ↔
        (∃ r ∈ baseline.rows.rows, r.timestamp = t) ∧ ¬ t < start.isoformat := by
      intro t
      simp only [timestampsFrom, (List.perm_insertionSort _ _).mem_iff, List.mem_dedup,
        List.mem_filter, List.mem_map, decide_eq_true_eq]
    have hiso := isoformat_timestamps (fun t ht d hd => by
      obtain ⟨⟨r, hr, rfl⟩, -⟩ := (htexts t).mp ht
      exact hcanonical r hr d hd) htimes
    have hnodup : (times.map DateTime.isoformat).Nodup := by
      rw [hiso]
      exact (List.perm_insertionSort _ _).nodup_iff.mpr (List.nodup_dedup _)
    have hholds := foldlM_establishes (P := fun (d : DateTime) rows =>
        (∀ a ∈ affectedAlphas ledger, AlphaHolds inputs d.isoformat a rows) ∧
          TotalHolds rows.rows d.isoformat) (List.Nodup.of_map _ hnodup)
      (fun d _ s s' hstep => (rewriteTimestamp_ok (List.nodup_dedup _) htotal hstep).2)
      (fun d hd e he hne s s' hstep hs => by
        have hpass := (rewriteTimestamp_ok (List.nodup_dedup _) htotal hstep).1
        have hother : d.isoformat ≠ e.isoformat := fun heq =>
          hne (List.inj_on_of_nodup_map hnodup he hd heq.symm)
        exact ⟨fun a ha => (hs.1 a ha).keep hpass hother, hs.2.keep hpass fun _ => hother⟩) hrows
    have hreached : ∀ r ∈ rows.rows, ¬ r.timestamp < start.isoformat →
        ∃ d ∈ times, d.isoformat = r.timestamp := by
      intro r hr hafter
      obtain ⟨r₀, hr₀, hterms⟩ := honly.origin hr
      have htime : r₀.timestamp = r.timestamp := by rw [← hterms]; rfl
      have hmem := (htexts r.timestamp).mpr ⟨⟨r₀, hr₀, htime⟩, hafter⟩
      rw [← hiso] at hmem
      exact List.mem_map.mp hmem
    show (pure (equityFormulaCheck inputs ledger start.isoformat { baseline with rows := rows } &&
      totalEquityCheck start.isoformat { baseline with rows := rows }) : Except EquityError Bool) = _
    have hformula : equityFormulaCheck inputs ledger start.isoformat { baseline with rows := rows } =
        true := by
      refine List.all_eq_true.mpr fun a ha => List.all_eq_true.mpr fun r hr => ?_
      rw [Bool.not_eq_true']
      by_cases hafter : r.timestamp < start.isoformat
      · simp [formulaFails, hafter]
      by_cases hown : r.alphaId = a
      · obtain ⟨d, hd, hiso'⟩ := hreached r hr hafter
        rw [← hown]
        exact formulaFails_eq_false ((hholds d hd).1 a ha r hr hown hiso'.symm) _
      · simp [formulaFails, hown]
    have htotals : totalEquityCheck start.isoformat { baseline with rows := rows } = true := by
      refine List.all_eq_true.mpr fun r hr => ?_
      rw [Bool.not_eq_true']
      by_cases hafter : r.timestamp < start.isoformat
      · simp [totalFails, hafter]
      · obtain ⟨d, hd, hiso'⟩ := hreached r hr hafter
        exact totalFails_eq_false hr (hiso' ▸ (hholds d hd).2) _
    rw [hformula, htotals]
    rfl

end Build

/-! ## The close of a position whose fee is zero -/

/-- A snapshot at the time of the close. -/
def freeSnapshot (id : ℕ) (alphaId : String) : EquitySnapshotRow where
  id := id
  timestamp := anHourLater.isoformat
  alphaId := alphaId
  balance := .fin 10005
  unrealizedPnl := some (.fin 5)
  realizedPnl := some (.fin 0)

/-- The alpha and the total. -/
def freeEquity : EquityTable where
  columns := ["id", "timestamp", "alpha_id", "balance", "unrealized_pnl", "realized_pnl"]
  rows := ⟨[freeSnapshot 1 "a", freeSnapshot 2 totalKey], by decide⟩

/-- No capital is configured, and no price is needed. -/
def freeInputs : EquityInputs where
  prices _ := ⟨[], List.Pairwise.nil⟩
  capitals := .empty
  localMs _ := 0

/-- The figures of the close. -/
theorem equityCandidate_validates_free : ∃ candidateMain candidate,
    buildMainCandidate "now" 0 [closeFree 0] freeDb = .ok candidateMain ∧
      buildEquityCandidate freeInputs candidateMain [closeFree 0] freeEquity = .ok candidate ∧
      validateEquity freeInputs [closeFree 0] candidate = .ok true := by
  have hbuilt : (buildMainCandidate "now" 0 [closeFree 0] freeDb).toOption.any (fun main =>
      (buildEquityCandidate freeInputs main [closeFree 0] freeEquity).isOk) = true := by decide +kernel
  cases hmain : buildMainCandidate "now" 0 [closeFree 0] freeDb with
  | error e =>
    rw [hmain] at hbuilt
    cases hbuilt
  | ok main =>
    rw [hmain] at hbuilt
    cases hequity : buildEquityCandidate freeInputs main [closeFree 0] freeEquity with
    | error e =>
      simp only [Except.toOption, Option.any_some, hequity] at hbuilt
      cases hbuilt
    | ok candidate =>
      refine ⟨main, candidate, rfl, hequity, equityCandidate_validates hequity ?_ ?_⟩
      · intro entry hentry
        obtain rfl := List.mem_singleton.mp hentry
        decide
      · intro r hr d hd
        have htime : r.timestamp = anHourLater.isoformat := by
          fin_cases hr <;> rfl
        rw [htime, anHourLater.reads] at hd
        cases hd
        rw [htime]
        decide +kernel

end PaperTrade.Recovery
