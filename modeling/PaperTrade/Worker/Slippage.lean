import PaperTrade.Worker.Conservation

/-!
# Slippage and PnL

A position that is opened and closed at one reference price under `fixed_pct_fill`. Both fills are
adverse when the fill model and the ledger read the side the same way, and the PnL is then negative.
They read it the same way unless the side is another spelling of `LONG`: the fill model folds the
case, `close_position` does not, and books the adverse move of a long as the gain of a short.
-/

namespace PaperTrade.Worker

open PaperTrade.Runtime

/-! ## The fills -/

/-- `fixed_pct_fill` on finite values. -/
lemma fixedPctFill_fin (price slippage : ℚ) (side : String) (isClose : Bool) :
    fixedPctFill (.fin price) side (.fin slippage) isClose =
      .fin (if isLongSide side = isClose then price - price * (slippage / 1000)
        else price + price * (slippage / 1000)) := by
  unfold fixedPctFill
  rw [PyFloat.ofNat_eq, PyFloat.div_fin _ (by norm_num), PyFloat.mul_fin]
  cases isLongSide side <;> cases isClose <;> simp

/-- The sign of the fill model: an adverse fill is dearer for a buyer of the position. -/
def fillSign (side : String) : ℚ := if isLongSide side then 1 else -1

lemma isLongSide_LONG : isLongSide "LONG" = true := by decide

/-- Opening and closing at one reference price, of any quantity. -/
lemma pnl_round_trip (side : String) (price slip feePct q : ℚ) :
    pnlOf side (price + fillSign side * (price * slip)) (price - fillSign side * (price * slip))
        feePct q =
      -(2 * (price * q) * (fillSign side * sideSign side * slip + feePct)) := by
  unfold pnlOf feeOf
  ring

/-- The two readings of a side agree except on another spelling of `LONG`. -/
lemma fillSign_mul_sideSign (side : String) :
    fillSign side * sideSign side = if side = "LONG" ∨ isLongSide side = false then 1 else -1 := by
  unfold fillSign sideSign
  by_cases hside : side = "LONG"
  · subst hside
    simp [isLongSide_LONG]
  · cases hlong : isLongSide side <;> simp [hside]

/-- A round trip at one reference price loses money, or the side is another spelling of `LONG` and
the fees cover the slippage. -/
lemma pnl_round_trip_nonpos_iff {side : String} {price slip feePct q : ℚ} (hprice : 0 < price)
    (hq : 0 < q) (hslip : 0 ≤ slip) (hfee : 0 ≤ feePct) :
    pnlOf side (price + fillSign side * (price * slip)) (price - fillSign side * (price * slip))
        feePct q ≤ 0 ↔ side = "LONG" ∨ isLongSide side = false ∨ slip ≤ feePct := by
  have hpq : 0 < 2 * (price * q) := by positivity
  rw [pnl_round_trip, fillSign_mul_sideSign, neg_nonpos, mul_nonneg_iff_of_pos_left hpq]
  by_cases h : side = "LONG" ∨ isLongSide side = false
  · rw [if_pos h, one_mul]
    have hsum : 0 ≤ slip + feePct := add_nonneg hslip hfee
    tauto
  · rw [if_neg h]
    obtain ⟨h₁, h₂⟩ := not_or.mp h
    constructor
    · exact fun hle => .inr (.inr (by linarith))
    · rintro (h | h | h)
      · exact absurd h h₁
      · exact absurd h h₂
      · linarith

/-! ## OPEN, then closes at the same reference price -/

/-- A CLOSE at the reference price `price` that the fixed-percentage model fills. -/
def FixedAt (price : ℚ) (env : Env) (signal : CloseSignal) : Prop :=
  env.fill = none ∧ signal.exitPrice = some (.fin price) ∧
    Executor.closeRefIsExecutable signal = false

instance (price : ℚ) (env : Env) (signal : CloseSignal) :
    Decidable (FixedAt price env signal) :=
  have : Decidable (env.fill = none) := decidable_of_iff _ Option.isNone_iff_eq_none
  inferInstanceAs (Decidable (_ ∧ _ ∧ _))

section

variable {self : Executor} {s : Tables} {m : Delivery} {signal : OpenSignal}

/-- What an accepted OPEN leaves behind. -/
theorem open_step (hparse : parseSignal m.data = .ok (.open signal)) (hacc : Accepted self s m) :
    (deliver self s m).positions.rows = s.positions.rows ++
        [self.openRow m.env signal (fillAt m.env s (.open signal))] ∧
      s.positions.contains
        (self.openRow m.env signal (fillAt m.env s (.open signal))).positionId = false ∧
      (deliver self s m).trades = s.trades := by
  obtain ⟨-, o, s', hs', hhandle⟩ := hacc.handled hparse
  rw [hs']
  cases hhandle with
  | opened _ _ hnew hrows => exact ⟨hrows, hnew, rfl⟩

/-- The position an OPEN under the fixed-percentage model leaves behind. -/
lemma open_fixed {price slippage feePct qty : ℚ}
    (hparse : parseSignal m.data = .ok (.open signal)) (hacc : Accepted self s m)
    (hfill : m.env.fill = none) (hslip : self.slippagePct = .fin slippage)
    (hentry : signal.entry = .fin price) (hqty : signal.qty = .fin qty)
    (hfee : signal.feePct = .fin feePct) :
    OpenAt (deliver self s m) (self.openRow m.env signal none).positionId signal.side
      (price + fillSign signal.side * (price * (slippage / 1000))) feePct qty
      (self.openRow m.env signal none) := by
  obtain ⟨hrows, -, -⟩ := open_step hparse hacc
  have hat : fillAt m.env s (.open signal) = none := by simp [fillAt, hfill]
  rw [hat] at hrows
  refine ⟨?_, rfl, ?_, ?_, ?_⟩
  · rw [Table.find?_some_iff, hrows]
    exact ⟨List.mem_append_right _ (List.mem_singleton_self _), rfl⟩
  · have hvalue : (self.openFill signal none).value =
        .fin (price + fillSign signal.side * (price * (slippage / 1000))) := by
      simp only [Executor.openFill, Option.getD_none, FillPrice.value, Executor.applySlippage,
        hentry, hslip, fixedPctFill_fin, fillSign]
      cases isLongSide signal.side
      · simp [sub_eq_add_neg]
      · simp
    simp [Executor.openRow, hvalue]
  · simp [Executor.openRow, hfee]
  · simp [Executor.openRow, hqty]

/-- Every close at the reference price records the same exit price. -/
lemma exitsAt_fixed {side : String} {price slippage : ℚ} (hslip : self.slippagePct = .fin slippage)
    (hprice : price ≠ 0) :
    ExitsAt self side (FixedAt price)
      (· = .fin (price - fillSign side * (price * (slippage / 1000)))) := by
  rintro env signal ⟨hfill, hexit, hexec⟩ s pos x execution rfl h
  have hat : fillAt env s (.close signal) = none := by simp [fillAt, hfill]
  have href : Executor.closeRefPrice signal pos = some (.fin price) := by
    simp [Executor.closeRefPrice, hexit, hprice]
  simp only [hat, Executor.closeFill, hexec, href, need, bind, Except.bind, pure, Except.pure,
    Bool.false_eq_true, if_false, Except.ok.injEq, Prod.mk.injEq, Option.some.injEq] at h
  rw [← h.1, Executor.applySlippage, hslip, fixedPctFill_fin, fillSign]
  cases isLongSide pos.side <;> simp

/-- A position opened and closed, in any number of parts, at one reference price never books a
gain, exactly when the ledger reads its side as the fill model does or the fees cover the
slippage. -/
theorem round_trip_no_gain_iff (self : Executor) (s : Tables) (m : Delivery) (signal : OpenSignal)
    (ms : List Delivery) (price slippage feePct qty : ℚ)
    (hparse : parseSignal m.data = .ok (.open signal)) (hacc : Accepted self s m)
    (hfill : m.env.fill = none)
    (hslip : self.slippagePct = .fin slippage) (hslip0 : 0 ≤ slippage)
    (hentry : signal.entry = .fin price) (hprice : 0 < price)
    (hqty : signal.qty = .fin qty) (hqty0 : 0 < qty)
    (hfee : signal.feePct = .fin feePct) (hfee0 : 0 ≤ feePct) (hne : ms ≠ [])
    (hms : AcceptedCloses self (self.openRow m.env signal none).positionId (FixedAt price)
      (deliver self s m) ms) :
    ∃ rows, (deliverAll self (deliver self s m) ms).trades.rows = s.trades.rows ++ rows ∧
      (total TradeRow.pnl rows ≤ 0 ↔
        signal.side = "LONG" ∨ isLongSide signal.side = false ∨ slippage / 1000 ≤ feePct) := by
  have hopen := open_fixed hparse hacc hfill hslip hentry hqty hfee
  obtain ⟨rows, hrows, hlen, hbooks, hprices, -⟩ :=
    closes_run (exitsAt_fixed hslip hprice.ne') hopen hqty0 hms
  rw [(open_step hparse hacc).2.2] at hrows
  refine ⟨rows, hrows, ?_⟩
  have hexit : ∀ t ∈ rows, t.exitPrice =
      some (.fin (price - fillSign signal.side * (price * (slippage / 1000)))) := by
    intro t ht
    obtain ⟨x, rfl, hx⟩ := hprices t ht
    rw [hx, real_fin]
  rw [(total_of_same_exit hbooks hexit).1]
  have htotal : 0 < total TradeRow.qty rows := by
    have hpos : rows ≠ [] := by
      rintro rfl
      exact hne (List.eq_nil_of_length_eq_zero hlen.symm)
    refine List.sum_pos _ ?_ (by simpa using hpos)
    intro a ha
    obtain ⟨t, ht, rfl⟩ := List.mem_map.mp ha
    obtain ⟨q, hq, hb⟩ := hbooks t ht
    rw [hb.qty]
    exact hq
  exact pnl_round_trip_nonpos_iff hprice htotal (by positivity) hfee0

end

/-- An OPEN of ten at 100 and a CLOSE of it at the same reference price, without fees. -/
def roundTrip (side : String) : Delivery × List Delivery :=
  ({ data := {
      type := "OPEN", alphaId := "alpha", signalId := "open-1", symbol := "BTCUSDT", side := side
      timestamp := "2024-01-01T00:00:00Z", positionId := "p1"
      entry := some (.chars "100"), qty := some (.chars "10") }
     env := { now := "2024-01-01T00:00:00", uuid := "u1" } },
   [{ data := {
      type := "CLOSE", alphaId := "alpha", signalId := "close-1", positionId := "p1"
      timestamp := "2024-01-01T01:00:00Z", exitPrice := some (.chars "100") }
      env := { now := "2024-01-01T01:00:00", uuid := "u2" } }])

theorem round_trip_no_gain_iff_LONG :
    ∃ rows, (deliverAll {} (deliver {} .empty (roundTrip "LONG").1) (roundTrip "LONG").2).trades.rows =
        Tables.empty.trades.rows ++ rows ∧ total TradeRow.pnl rows ≤ 0 := by
  obtain ⟨signal, hparse⟩ := Option.isSome_iff_exists.mp
    (show (openOf (parseSignal (roundTrip "LONG").1.data)).isSome = true by decide +kernel)
  have hfields : (openOf (parseSignal (roundTrip "LONG").1.data)).any (fun signal =>
      decide (signal.side = "LONG" ∧ signal.positionId = "p1" ∧ signal.entry = .fin 100 ∧
        signal.qty = .fin 10 ∧ signal.feePct = .fin 0)) = true := by decide +kernel
  rw [hparse, Option.any_some, decide_eq_true_eq] at hfields
  obtain ⟨hside, hid, hentry, hqty, hfee⟩ := hfields
  have hpid : (Executor.openRow {} (roundTrip "LONG").1.env signal none).positionId = "p1" := by
    simp [Executor.openRow, hid]
  obtain ⟨rows, hrows, hiff⟩ := round_trip_no_gain_iff {} .empty (roundTrip "LONG").1 signal
    (roundTrip "LONG").2 100 (5 / 100) 0 10 (openOf_eq_some.mp hparse)
    (show (reply {} .empty (roundTrip "LONG").1).isSome = true by decide +kernel) rfl rfl
    (by norm_num) hentry (by norm_num) hqty (by norm_num) hfee le_rfl (by simp [roundTrip])
    (by rw [hpid]; decide +kernel)
  exact ⟨rows, hrows, hiff.mpr (.inl hside)⟩

/-- With the side spelled in lower case the round trip books a gain. -/
theorem roundTrip_lower_case_gain :
    Accepted {} .empty (roundTrip "long").1 ∧
      AcceptedCloses {} "p1" (FixedAt 100) (deliver {} .empty (roundTrip "long").1)
        (roundTrip "long").2 ∧
      0 < total TradeRow.pnl
        (deliverAll {} .empty ((roundTrip "long").1 :: (roundTrip "long").2)).trades.rows := by
  refine ⟨show (reply {} .empty (roundTrip "long").1).isSome = true by decide +kernel, ?_, ?_⟩
  · decide +kernel
  · decide +kernel

end PaperTrade.Worker
