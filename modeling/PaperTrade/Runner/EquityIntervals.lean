import PaperTrade.Runner.Scan

/-!
# The intervals of the equity

`Intervals` is the equity on paper: the bars that are processed cut the time into intervals, and each
has one factor, from the weights that are held over it, its prices and the cost of the turnover that
took them. The equity of a strategy is the product of these factors as long as no scan raises after
its mark, since such a scan leaves its bar to be marked again; and as long as no cost is pending when
there is nothing to mark, since the next turnover overwrites it.
-/

namespace PaperTrade.Runner

open PaperTrade.Runtime PaperTrade.CrossAlpha

/-- What the next interval begins with, and the factors of those that have ended. -/
structure Intervals where
  weights : Dict String PyFloat
  prices : Dict String PyFloat
  cost : PyFloat
  factors : List PyFloat := []

namespace Intervals

/-- The factor of the interval that ends with some prices. -/
def factor (l : Intervals) (prices : Dict String PyFloat) : PyFloat :=
  1 + (Scanner.grossReturn l.weights l.prices prices - l.cost)

/-- A bar ends the interval; the next one begins with some weights and what they cost. -/
def next (l : Intervals) (prices weights : Dict String PyFloat) (cost : PyFloat) : Intervals :=
  ⟨weights, prices, cost, l.factors ++ [l.factor prices]⟩

/-- What an amount has become. -/
def grown (l : Intervals) (amount : PyFloat) : PyFloat := l.factors.foldl (· * ·) amount

lemma grown_next (l : Intervals) (prices weights : Dict String PyFloat) (cost amount : PyFloat) :
    (l.next prices weights cost).grown amount = l.grown amount * l.factor prices :=
  List.foldl_append

end Intervals

namespace Scanner

open CrossSectional

variable (x : Scanner) (digest : Logical → String) (uuid4 : ℕ → String) (env : ℕ → DispatchEnv)

/-- What it costs to take new weights; an alpha that only publishes pays nothing. -/
def turnoverCost (before after : Dict String PyFloat) : PyFloat :=
  if x.bookOnly then 0 else turnover before after * .fin x.spec.feeBps / 10000

/-- The intervals after one step. -/
def intervalsStep (l : Intervals) (w : ScanWorld) : ScanEvent → Intervals
  | .scan i =>
    let held := (x.scan digest uuid4 env i w).2.state.baseWeights
    match (x.scan digest uuid4 env i w).1, i.bundle with
    | .ok .gated, .ok (some bundle) => l.next bundle.prices l.weights 0
    | .ok .notDue, .ok (some bundle) => l.next bundle.prices l.weights 0
    | .ok (.applied _), .ok (some bundle) =>
      l.next bundle.prices held (x.turnoverCost l.weights held)
    | _, _ => l
  | _ => l

/-- The intervals of a run. -/
def intervalsFrom (l : Intervals) (w : ScanWorld) : List ScanEvent → Intervals
  | [] => l
  | e :: events =>
    intervalsFrom (x.intervalsStep digest uuid4 env l w e) (x.step digest uuid4 env w e) events

/-- The intervals from a state on. -/
def intervals (w : ScanWorld) (events : List ScanEvent) : Intervals :=
  x.intervalsFrom digest uuid4 env
    ⟨w.state.baseWeights, w.state.lastPrices, w.state.pendingCost, []⟩ w events

/-- The equity has grown by the factor of every processed bar, once. -/
def CountedOnce (w : ScanWorld) (events : List ScanEvent) : Prop :=
  let l := x.intervals digest uuid4 env w events
  (x.run digest uuid4 env w events).state.equity = l.grown w.state.equity ∧
    (x.bookOnly = true →
      (x.run digest uuid4 env w events).shadowEquity = l.grown w.shadowEquity)

/-- A scan that marks a bar does not raise, and finds weights and last prices when a cost is pending;
the process goes on. -/
def Sound (w : ScanWorld) : ScanEvent → Prop
  | .scan i => ∀ bundle tfMs, x.NewBar i w bundle tfMs →
    (∃ r, (x.scan digest uuid4 env i w).1 = .ok r) ∧
    (w.state.pendingCost = 0 ∨
      (w.state.lastPrices.rows ≠ [] ∧ w.state.baseWeights.rows ≠ []))
  | .runtime _ _ => True
  | .restart _ => False

/-- The state of a strategy against its intervals, from two amounts. -/
structure Matches (equity shadow : PyFloat) (l : Intervals) (w : ScanWorld) : Prop where
  weights : w.state.baseWeights = l.weights
  prices : w.state.lastPrices = l.prices
  cost : w.state.pendingCost = l.cost
  equity : w.state.equity = l.grown equity
  shadow : x.bookOnly = true → w.shadowEquity = l.grown shadow

variable {x digest uuid4 env} {w : ScanWorld} {l : Intervals} {equity shadow : PyFloat}

/-- Without weights or last prices there is no return. -/
lemma grossReturn_of_empty {weights lastPrices : Dict String PyFloat}
    (h : lastPrices.rows = [] ∨ weights.rows = []) (prices : Dict String PyFloat) :
    grossReturn weights lastPrices prices = 0 := by
  have hnone : weights.rows.filterMap (markOf lastPrices prices) = [] := by
    rcases h with h | h
    · refine List.filterMap_eq_nil_iff.mpr fun e _ => ?_
      have hget : lastPrices.get? e.1 = none := by
        rw [Dict.get?_none_iff, h]
        exact fun v => List.not_mem_nil
      unfold markOf
      rw [hget]
    · rw [h]
      rfl
  unfold grossReturn
  rw [hnone]
  rfl

/-- A mark ends the interval. -/
lemma Matches.record (h : x.Matches equity shadow l w) (i : ScanReads)
    (hcost : w.state.pendingCost = 0 ∨
      (w.state.lastPrices.rows ≠ [] ∧ w.state.baseWeights.rows ≠ []))
    (prices : Dict String PyFloat) :
    (x.recordPortfolioReturn i prices w).state.equity = l.grown equity * l.factor prices ∧
      (x.bookOnly = true → (x.recordPortfolioReturn i prices w).shadowEquity =
        l.grown shadow * l.factor prices) ∧
      (x.recordPortfolioReturn i prices w).state.pendingCost = 0 ∧
      (x.recordPortfolioReturn i prices w).state.baseWeights = l.weights := by
  have hret : grossReturn w.state.baseWeights w.state.lastPrices prices - w.state.pendingCost =
      grossReturn l.weights l.prices prices - l.cost := by
    rw [h.weights, h.prices, h.cost]
  by_cases hempty : w.state.lastPrices.rows = [] ∨ w.state.baseWeights.rows = []
  · -- nothing is marked, and nothing is to be paid
    have hunchanged : x.recordPortfolioReturn i prices w = w := if_pos hempty
    have hzero : w.state.pendingCost = 0 := by
      rcases hcost with hcost | ⟨hlast, hbase⟩
      · exact hcost
      · exact absurd hempty (by tauto)
    have hfactor : l.factor prices = 1 := by
      unfold Intervals.factor
      rw [← hret, grossReturn_of_empty hempty, hzero]
      decide +kernel
    rw [hunchanged, hfactor]
    refine ⟨?_, fun hbook => ?_, hzero, h.weights⟩
    · rw [PyFloat.mul_one, h.equity]
    · rw [PyFloat.mul_one, h.shadow hbook]
  · unfold recordPortfolioReturn
    rw [if_neg hempty]
    dsimp only
    rw [hret]
    split
    · rename_i hbook
      unfold publishShadowPnl compound
      dsimp only
      split <;> exact ⟨congrArg (· * l.factor prices) h.equity,
        fun _ => congrArg (· * l.factor prices) (h.shadow hbook), rfl, h.weights⟩
    · rename_i hbook
      exact ⟨congrArg (· * l.factor prices) h.equity, fun hbook' => absurd hbook' hbook, rfl,
        h.weights⟩

/-- A new book begins the next interval. -/
lemma apply_begins {i : ScanReads} {selection : Selection} {prices : Dict String PyFloat}
    {latest : ℤ} {w' : ScanWorld} (hcost : w.state.pendingCost = 0)
    (happly : x.apply digest uuid4 env i selection prices latest w = (.ok (), w')) :
    w'.state.pendingCost = x.turnoverCost w.state.baseWeights w'.state.baseWeights := by
  unfold apply at happly
  unfold turnoverCost
  split at happly
  · rename_i hbook
    have hstate := (@publishTargetBook_frame x i prices latest selection
      { w with state := { w.state with baseWeights := selection.weights } }).1
    rw [happly] at hstate
    rw [if_pos hbook, hstate]
    exact hcost
  · rename_i hbook
    obtain ⟨-, -, -, hok⟩ := @applySelection_accounts digest uuid4 env x.toCrossSectional
      selection prices latest i.authoritative i.cachedClose (w.state, w.outbox)
    rw [Prod.mk.injEq] at happly
    obtain ⟨hresult, hworld⟩ := happly
    generalize (x.applySelection digest uuid4 env selection prices latest i.authoritative
      i.cachedClose).run (w.state, w.outbox) = r at hok hresult hworld
    have hr : r.1 = .ok () := by
      cases hr : r.1 with
      | error e =>
        rw [hr] at hresult
        cases hresult
      | ok u => rfl
    obtain ⟨hbase, hpending⟩ := hok hr
    rw [if_neg hbook, ← hworld]
    dsimp only
    rw [hbase, hpending]

/-- One step. -/
lemma Matches.step (h : x.Matches equity shadow l w) {e : ScanEvent}
    (hsound : x.Sound digest uuid4 env w e) :
    x.Matches equity shadow (x.intervalsStep digest uuid4 env l w e)
      (x.step digest uuid4 env w e) := by
  cases e with
  | runtime r symbols => exact ⟨h.weights, h.prices, h.cost, h.equity, h.shadow⟩
  | restart b => exact hsound.elim
  | scan i =>
    have hstep := scan_cases x digest uuid4 env i w
    have hends : ∀ bundle tfMs, x.NewBar i w bundle tfMs →
        ∃ r, (x.scan digest uuid4 env i w).1 = .ok r := fun _ _ hnew => (hsound _ _ hnew).1
    have hpaid : ∀ bundle tfMs, x.NewBar i w bundle tfMs → w.state.pendingCost = 0 ∨
        (w.state.lastPrices.rows ≠ [] ∧ w.state.baseWeights.rows ≠ []) :=
      fun _ _ hnew => (hsound _ _ hnew).2
    unfold intervalsStep Scanner.step
    dsimp only
    generalize (x.scan digest uuid4 env i w).1 = r at hstep hends ⊢
    generalize (x.scan digest uuid4 env i w).2 = w' at hstep ⊢
    cases hstep with
    | idle r hidle =>
      split
      · cases hidle _ rfl
      · cases hidle _ rfl
      · cases hidle _ rfl
      · exact h
    | @passed bundle tfMs hnew hdue r hr =>
      obtain ⟨hequity, hshadow, hcost, hweights⟩ := h.record i (hpaid _ _ hnew) bundle.prices
      have hpassed : x.Matches equity shadow (l.next bundle.prices l.weights 0)
          (advance bundle.prices (scanned i bundle tfMs) (x.markedWorld i w bundle)) := by
        refine ⟨hweights, rfl, hcost, ?_, fun hbook => ?_⟩
        · rw [Intervals.grown_next]
          exact hequity
        · rw [Intervals.grown_next]
          exact hshadow hbook
      rw [hnew.panel]
      rcases hr with rfl | rfl
      · exact hpassed
      · exact hpassed
    | raised hnew e =>
      obtain ⟨r, hr⟩ := hends _ _ hnew
      cases hr
    | applyRaised hnew happly =>
      obtain ⟨r, hr⟩ := hends _ _ hnew
      cases hr
    | @applied bundle tfMs hnew selection w' hselect happly =>
      obtain ⟨hequity, hshadow, hcost, hweights⟩ := h.record i (hpaid _ _ hnew) bundle.prices
      obtain ⟨hequity', -, -, hshadow'⟩ := apply_frame x digest uuid4 env i bundle.prices
        (scanned i bundle tfMs) selection (x.markedWorld i w bundle)
      have hcost' := apply_begins hcost happly
      rw [hweights] at hcost'
      rw [happly] at hequity' hshadow'
      rw [hnew.panel]
      refine ⟨rfl, rfl, hcost', ?_, fun hbook => ?_⟩
      · rw [Intervals.grown_next]
        exact hequity'.trans hequity
      · rw [Intervals.grown_next]
        exact hshadow'.trans (hshadow hbook)

/-- A run. -/
lemma Matches.run {events : List ScanEvent} (h : x.Matches equity shadow l w)
    (hsound : x.Along digest uuid4 env (x.Sound digest uuid4 env) w events) :
    x.Matches equity shadow (x.intervalsFrom digest uuid4 env l w events)
      (x.run digest uuid4 env w events) := by
  induction events generalizing l w with
  | nil => exact h
  | cons e events ih => exact ih (h.step hsound.1) hsound.2

/-- The equity counts every interval once, in a run whose marked bars are processed and whose costs
are paid. -/
theorem countedOnce_of_sound (events : List ScanEvent)
    (hsound : x.Along digest uuid4 env (x.Sound digest uuid4 env) w events) :
    x.CountedOnce digest uuid4 env w events := by
  have hstart : x.Matches w.state.equity w.shadowEquity
      ⟨w.state.baseWeights, w.state.lastPrices, w.state.pendingCost, []⟩ w :=
    ⟨rfl, rfl, rfl, rfl, fun _ => rfl⟩
  have hend := hstart.run hsound
  exact ⟨hend.equity, hend.shadow⟩

/-! ## A sleeve that is marked twice -/

/-- The scan of a bar whose selection raises. -/
def failedScan (bar : ℤ) (close : ℚ) : ScanReads where
  __ := sleeveScan bar close
  select _ := .error .selection

theorem countedOnce_sleeve :
    (sleeve 1).CountedOnce (fun _ => "") (fun _ => "") (fun _ => { now := "t" })
      (newAlpha { dispatcher := {} } { warm := some 0 })
      [.scan (sleeveScan 1 100), .scan (sleeveScan 2 110)] := by
  refine countedOnce_of_sound _ ⟨fun _ _ _ => ⟨⟨.applied 3600000, ?_⟩, .inl rfl⟩,
    fun _ _ _ => ⟨⟨.applied 7200000, ?_⟩, .inl ?_⟩, trivial⟩ <;>
    decide +kernel

/-- A scan whose selection is empty. -/
def cashScan (bar : ℤ) (close : ℚ) : ScanReads where
  __ := sleeveScan bar close
  select _ := .ok {}

/-- A selection raises, and the bar is scanned again: its return is counted twice. And an alpha that
trades goes into cash: what it pays for leaving its book is lost with the next book. -/
theorem not_countedOnce :
    ¬ (sleeve 1).CountedOnce (fun _ => "") (fun _ => "") (fun _ => { now := "t" })
        (newAlpha { dispatcher := {} } { warm := some 0 })
        [.scan (sleeveScan 1 100), .scan (failedScan 2 110), .scan (sleeveScan 2 110)] ∧
      ¬ { sleeve 1 with bookOnly := false }.CountedOnce (fun _ => "") (fun _ => "")
        (fun _ => { now := "t" }) (newAlpha { dispatcher := {} } { warm := some 0 })
        [.scan (sleeveScan 1 100), .scan (cashScan 2 100), .scan (sleeveScan 3 100),
          .scan (sleeveScan 4 100)] := by
  constructor
  · rintro ⟨hequity, -⟩
    revert hequity
    decide +kernel
  · rintro ⟨hequity, -⟩
    revert hequity
    decide +kernel

end Scanner

end PaperTrade.Runner
