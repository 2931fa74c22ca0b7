import PaperTrade.Runner.Scan

/-!
# Bars that are due

A scan looks at one bar, the newest, and then marks it as processed; a warm-up marks the newest bar
without a scan. The bars between the last one and the new one are not looked at, so a bar that is due
is rebalanced only when the scan comes at it, or at a later bar that is due.

Which times are bars is a parameter: the opening times of the candles.
-/

namespace PaperTrade.Runner

open PaperTrade.Runtime PaperTrade.CrossAlpha

namespace Scanner

variable (x : Scanner) (digest : Logical → String) (uuid4 : ℕ → String) (env : ℕ → DispatchEnv)
  (bar : ℤ → Prop)

/-- The bar is due under the schedule of the alpha. -/
def Due (d : ℤ) : Prop := ∃ tfMs, tfToMs x.spec.timeframe = some tfMs ∧ x.due d tfMs = some true

/-- The bars for which a step has executed `_apply_selection`. -/
def rebalancedBy (w : ScanWorld) : ScanEvent → List ℤ
  | .scan i =>
    match (x.scan digest uuid4 env i w).1 with
    | .ok (.applied c) => [c]
    | _ => []
  | _ => []

/-- The alpha has a book or positions. -/
def Holds (w : ScanWorld) : Prop :=
  w.targetBook.isSome = true ∨ w.state.openPositions.rows ≠ []

/-- Every due bar that a step moves the marker over has been rebalanced, or a later one that the step
moves it over; `past` are the bars that have been rebalanced before. -/
def Covered (past : List ℤ) (w : ScanWorld) (e : ScanEvent) : Prop :=
  let moved := (x.step digest uuid4 env w e).state.lastProcessedCandle
  Holds w → ∀ d, bar d → w.state.lastProcessedCandle < d → d ≤ moved → x.Due d →
    ∃ d' ∈ past ++ x.rebalancedBy digest uuid4 env w e, d ≤ d' ∧ d' ≤ moved ∧ x.Due d'

/-- No step of a run moves the marker over a due bar that is not rebalanced. -/
def NoDueSkipped (past : List ℤ) (w : ScanWorld) : List ScanEvent → Prop
  | [] => True
  | e :: events =>
    x.Covered digest uuid4 env bar past w e ∧
      NoDueSkipped (past ++ x.rebalancedBy digest uuid4 env w e) (x.step digest uuid4 env w e) events

/-- While the alpha has a book or positions, a scan that passes over a due bar is at a due bar itself,
and no warm-up passes over one. -/
def Reaches (w : ScanWorld) : ScanEvent → Prop
  | .scan i => Holds w → ∀ bundle tfMs, x.NewBar i w bundle tfMs → ∀ d, bar d →
    w.state.lastProcessedCandle < d → d < scanned i bundle tfMs → x.Due d →
      x.Due (scanned i bundle tfMs)
  | .runtime _ _ => True
  | .restart b => Holds w → ∀ d, bar d → w.state.lastProcessedCandle < d →
    d ≤ (if b.runtime.ready then b.warm.getD 0 else 0) → ¬ x.Due d

variable {x digest uuid4 env bar} {w : ScanWorld}

/-- A mark and a book do not move the marker. -/
lemma processed_recorded (i : ScanReads) (prices : Dict String PyFloat) :
    (x.recordPortfolioReturn i prices w).state.lastProcessedCandle = w.state.lastProcessedCandle := by
  unfold recordPortfolioReturn publishShadowPnl compound
  dsimp only
  split_ifs <;> rfl

/-- The marker of a new process. -/
lemma processed_restart (b : Boot) :
    (x.restart b w).state.lastProcessedCandle = if b.runtime.ready then b.warm.getD 0 else 0 := by
  have hrestored : (restoreShadowState (x.newProcess b w)).state.lastProcessedCandle = 0 := by
    unfold restoreShadowState
    dsimp only
    split <;> split <;> rfl
  unfold restart warmUp
  split_ifs
  · exact congrArg b.warm.getD hrestored
  · rfl
  · exact hrestored
  · rfl

/-- A bar whose due test is negative is not due. -/
lemma not_due {d tfMs : ℤ} (htf : tfToMs x.spec.timeframe = some tfMs)
    (hdue : x.due d tfMs = some false) : ¬ x.Due d := by
  rintro ⟨tfMs', htf', hdue'⟩
  rw [htf, Option.some.injEq] at htf'
  rw [← htf', hdue] at hdue'
  cases hdue'

/-- A scan that moves the marker is at the bar that it moves it to; when that bar is due, it has been
rebalanced. -/
lemma scan_moves {i : ScanReads}
    (hmoved : w.state.lastProcessedCandle <
      (x.scan digest uuid4 env i w).2.state.lastProcessedCandle) :
    ∃ bundle tfMs, x.NewBar i w bundle tfMs ∧
      (x.scan digest uuid4 env i w).2.state.lastProcessedCandle = scanned i bundle tfMs ∧
      (x.Due (scanned i bundle tfMs) →
        (x.scan digest uuid4 env i w).1 = .ok (.applied (scanned i bundle tfMs))) := by
  have hstep := scan_cases x digest uuid4 env i w
  generalize (x.scan digest uuid4 env i w).1 = r at hstep ⊢
  generalize (x.scan digest uuid4 env i w).2 = w' at hstep hmoved ⊢
  cases hstep with
  | idle => exact absurd hmoved (lt_irrefl _)
  | @passed bundle tfMs h hdue =>
    exact ⟨bundle, tfMs, h, rfl, fun hdue' => absurd hdue' (not_due h.tf hdue)⟩
  | raised =>
    rw [processed_recorded] at hmoved
    exact absurd hmoved (lt_irrefl _)
  | @applyRaised bundle tfMs h selection e w' happly =>
    obtain ⟨-, -, hbar, -⟩ := apply_frame x digest uuid4 env i bundle.prices
      (scanned i bundle tfMs) selection (x.markedWorld i w bundle)
    rw [happly, processed_recorded] at hbar
    dsimp only at hbar
    rw [hbar] at hmoved
    exact absurd hmoved (lt_irrefl _)
  | @applied bundle tfMs h => exact ⟨bundle, tfMs, h, rfl, fun _ => rfl⟩

/-- One step. -/
lemma covered_of_reaches {e : ScanEvent} (past : List ℤ) (h : x.Reaches bar w e) :
    x.Covered digest uuid4 env bar past w e := by
  intro hholds d hbar hpast hreached hdue
  have hlt := hpast.trans_le hreached
  generalize hmoved : (x.step digest uuid4 env w e).state.lastProcessedCandle = moved at *
  cases e with
  | scan i =>
    rw [← hmoved] at hlt
    obtain ⟨bundle, tfMs, hnew, hmarker, happlied⟩ := scan_moves hlt
    replace hmoved : moved = scanned i bundle tfMs := hmoved.symm.trans hmarker
    have hdueBar : x.Due (scanned i bundle tfMs) := by
      rcases hreached.lt_or_eq with hlt | heq
      · rw [hmoved] at hlt
        exact h hholds bundle tfMs hnew d hbar hpast hlt hdue
      · rw [← hmoved, ← heq]
        exact hdue
    have hmem : scanned i bundle tfMs ∈ x.rebalancedBy digest uuid4 env w (.scan i) := by
      unfold rebalancedBy
      dsimp only
      rw [happlied hdueBar]
      exact List.mem_singleton_self _
    refine ⟨scanned i bundle tfMs, List.mem_append_right _ hmem, ?_, hmoved.ge, hdueBar⟩
    rw [← hmoved]
    exact hreached
  | runtime =>
    rw [← hmoved] at hlt
    exact absurd hlt (lt_irrefl _)
  | restart b =>
    rw [← hmoved, step, processed_restart] at hreached
    exact absurd hdue (h hholds d hbar hpast hreached)

/-- No bar that is due is skipped, in a run whose scans and warm-ups pass over none. -/
theorem noDueSkipped_of_reaches (past : List ℤ) (events : List ScanEvent)
    (h : x.Along digest uuid4 env (x.Reaches bar) w events) :
    x.NoDueSkipped digest uuid4 env bar past w events := by
  induction events generalizing past w with
  | nil => trivial
  | cons e events ih => exact ⟨covered_of_reaches past h.1, ih _ h.2⟩

/-! ## A sleeve that rebalances every two hours -/

/-- The hours. -/
def Hour (d : ℤ) : Prop := 3600000 ∣ d

/-- Scanned hour by hour, nothing is skipped. -/
theorem noDueSkipped_hourByHour :
    (sleeve 2).NoDueSkipped (fun _ => "") (fun _ => "") (fun _ => { now := "t" }) Hour []
      (newAlpha { dispatcher := {} } { warm := some 3600000 })
      [.scan (sleeveScan 2 100), .scan (sleeveScan 3 110), .restart { warm := some 10800000 },
        .scan (sleeveScan 4 121)] := by
  have hscan : ∀ (hour : ℤ) (close : ℚ) (w : ScanWorld),
      w.state.lastProcessedCandle = (hour - 1) * 3600000 →
        (sleeve 2).Reaches Hour w (.scan (sleeveScan hour close)) := by
    intro hour close w hw _ bundle tfMs hnew d hd hlt hd' _
    obtain ⟨k, rfl⟩ := hd
    have hbundle : bundle = ⟨hour * 3600000, [("BTC", [.fin close])]⟩ := by
      have hpanel := hnew.panel
      simp only [sleeveScan, Except.ok.injEq, Option.some.injEq] at hpanel
      exact hpanel.symm
    have hscanned : scanned (sleeveScan hour close) bundle tfMs = hour * 3600000 := by
      unfold scanned
      rw [hbundle]
      exact if_neg fun h => absurd h.1 (lt_irrefl _)
    rw [hscanned] at hd'
    rw [hw] at hlt
    omega
  refine noDueSkipped_of_reaches [] _ ⟨hscan _ _ _ ?_, hscan _ _ _ ?_, ?_, hscan _ _ _ ?_, trivial⟩
  · decide +kernel
  · decide +kernel
  · intro _ d _ hlt hle
    exact absurd (hlt.trans_le hle) (by decide +kernel)
  · decide +kernel

/-- The fourth hour is due and its panel is there; while it is built the first candle of the fifth hour
arrives, and the scan marks the fifth hour as processed without a rebalance. -/
theorem due_skipped :
    ¬ (sleeve 2).NoDueSkipped (fun _ => "") (fun _ => "") (fun _ => { now := "t" }) Hour []
      (newAlpha { dispatcher := {} } { warm := some 3600000 })
      [.scan (sleeveScan 2 100), .scan { sleeveScan 4 110 with cacheLatest := 18000000 }] := by
  rintro ⟨-, hcovered, -⟩
  obtain ⟨d, hmem, hle, -⟩ := hcovered (.inl (by decide +kernel)) 14400000 ⟨4, rfl⟩
    (by decide +kernel) (by decide +kernel) ⟨3600000, by decide +kernel, by decide +kernel⟩
  -- only the second hour has been rebalanced
  revert d
  decide +kernel

end Scanner

end PaperTrade.Runner
