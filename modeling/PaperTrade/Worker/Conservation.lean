import PaperTrade.Worker.Delivery

/-!
# Quantity and PnL over partial closes

A run of accepted CLOSE signals on one position. One close moves a quantity `q` from the row of the
position to a new trade row (`close_step`); the closed quantities and what is left of the position
add up to the opened quantity, up to the dust that the last close drops. The PnL and the fee of a
trade row are linear in its quantity, so at one exit price the sums over the rows are those of a
single close.
-/

namespace PaperTrade.Worker

open PaperTrade.Runtime

/-! ## One trade row -/

/-- The sign `close_position` gives to a price move. -/
def sideSign (side : String) : ℚ := if side = "LONG" then 1 else -1

/-- The fee of closing `q` at `exit`. -/
def feeOf (entry exit feePct q : ℚ) : ℚ := (entry + exit) * q * feePct

/-- The PnL of closing `q` at `exit`, after the fee. -/
def pnlOf (side : String) (entry exit feePct q : ℚ) : ℚ :=
  (exit - entry) * q * sideSign side - feeOf entry exit feePct q

lemma direction_eq (side : String) : direction side = .fin (sideSign side) := by
  unfold direction sideSign
  split <;> rfl

@[simp] lemma real_eq_some_fin (x : PyFloat) (q : ℚ) : real x = some (.fin q) ↔ x = .fin q := by
  cases x <;> simp [real]

/-- The row of a close of `q`, at whatever exit price it records. -/
structure Books (positionId side : String) (entry feePct q : ℚ) (t : TradeRow) : Prop where
  positionId : t.positionId = positionId
  qty : t.qty = some (.fin q)
  fee : ∀ x, t.exitPrice = some (.fin x) → t.fee = some (.fin (feeOf entry x feePct q))
  pnl : ∀ x, t.exitPrice = some (.fin x) → t.pnl = some (.fin (pnlOf side entry x feePct q))

lemma closingTrade_books {pos : PositionRow} {exit : Option PyFloat} {q entry feePct : ℚ}
    {reason closedAt tradeId : String} {metadata : Text} {t : TradeRow}
    (hentry : pos.entryPrice = some (.fin entry)) (hfee : pos.feePct.getD 0 = .fin feePct)
    (h : closingTrade pos exit (.fin q) reason closedAt metadata tradeId = .ok t) :
    Books pos.positionId pos.side entry feePct q t ∧ t.tradeId = tradeId ∧
      ∃ x, exit = some x ∧ t.exitPrice = real x := by
  simp only [closingTrade, bind, Except.bind, pure, Except.pure, hentry, hfee, need] at h
  cases exit with
  | none => cases h
  | some x =>
  simp only at h
  split at h
  · cases h
  split at h
  · cases h
  split at h
  · cases h
  cases h
  refine ⟨⟨rfl, rfl, fun y hy => ?_, fun y hy => ?_⟩, rfl, x, rfl, rfl⟩
  · rw [real_eq_some_fin] at hy
    simp [hy, feeOf]
  · rw [real_eq_some_fin] at hy
    simp [hy, direction_eq, pnlOf, feeOf, mul_assoc]

/-- The ids of a closing row. -/
lemma closingTrade_ids {pos : PositionRow} {exit : Option PyFloat} {q : PyFloat}
    {reason closedAt tradeId : String} {metadata : Text} {t : TradeRow}
    (h : closingTrade pos exit q reason closedAt metadata tradeId = .ok t) :
    t.tradeId = tradeId ∧ t.positionId = pos.positionId := by
  simp only [closingTrade] at h
  obtain ⟨_, -, h⟩ := bind_eq_ok h
  obtain ⟨_, -, h⟩ := bind_eq_ok h
  obtain ⟨_, -, h⟩ := bind_eq_ok h
  obtain ⟨_, -, h⟩ := bind_eq_ok h
  obtain ⟨_, -, h⟩ := bind_eq_ok h
  cases h
  exact ⟨rfl, rfl⟩

/-! ## One close -/

/-- The position is open with this side, entry price, fee rate and quantity. -/
structure OpenAt (s : Tables) (positionId side : String) (entry feePct qty : ℚ)
    (pos : PositionRow) : Prop where
  found : s.positions.find? positionId = some pos
  side : pos.side = side
  entryPrice : pos.entryPrice = some (.fin entry)
  feePct : pos.feePct.getD 0 = .fin feePct
  qty : pos.qty = some (.fin qty)

/-- Below this a position counts as closed. -/
def dustQty : ℚ := 1 / 1000000000000

lemma find?_reduce {s : Tables} {positionId : String} {pos : PositionRow} (qty : PyFloat)
    (metadata : Text) (h : s.positions.find? positionId = some pos) :
    (s.reduce positionId qty metadata).positions.find? positionId =
      some (pos.reduced qty metadata) := by
  rw [Tables.reduce, Table.find?_modify, if_pos rfl, h, Option.map_some]

@[simp] lemma positions_mark (s : Tables) (id : String) (e : Option PyError) :
    (s.mark id e).positions = s.positions := rfl
@[simp] lemma trades_mark (s : Tables) (id : String) (e : Option PyError) :
    (s.mark id e).trades = s.trades := rfl
@[simp] lemma positions_log (s : Tables) (r : SignalRow) : (s.log r).positions = s.positions := rfl
@[simp] lemma trades_log (s : Tables) (r : SignalRow) : (s.log r).trades = s.trades := rfl

/-- What an accepted CLOSE of `q` does to an open position: the quantity goes to a new trade row,
and the position is gone when no more than dust is left. -/
structure CloseStep (s s' : Tables) (positionId side : String) (entry feePct qty q : ℚ)
    (t : TradeRow) : Prop where
  rows : s'.trades.rows = s.trades.rows ++ [t]
  books : Books positionId side entry feePct q t
  positive : 0 < q
  le : q ≤ qty
  rest : (s'.positions.find? positionId = none ∧ qty - q ≤ dustQty) ∨
    (dustQty < qty - q ∧ ∃ pos', OpenAt s' positionId side entry feePct (qty - q) pos')

section Step

variable {self : Executor} {s : Tables} {m : Delivery} {signal : CloseSignal}
  {side : String} {entry feePct qty : ℚ} {pos : PositionRow}

theorem close_step (hparse : parseSignal m.data = .ok (.close signal)) (hacc : Accepted self s m)
    (hopen : OpenAt s signal.positionId side entry feePct qty pos) (hqty : 0 < qty) :
    ∃ q t x execution, CloseStep s (deliver self s m) signal.positionId side entry feePct qty q t ∧
      self.closeFill signal pos (fillAt m.env s (.close signal)) = .ok (some x, execution) ∧
      t.exitPrice = real x := by
  obtain ⟨-, o, s', hs', hhandle⟩ := hacc.handled hparse
  cases hhandle with
  | @closed pos' q' o' exit execution _ hfind hcheck ho hfill hclose =>
  rw [positions_log, hopen.found] at hfind
  cases hfind
  rw [hopen.qty] at ho
  cases ho
  obtain ⟨hq', hpos', o'', ho'', -⟩ := checkCloseQty_ok signal hcheck
  rw [hopen.qty] at ho''
  cases ho''
  rw [hs']
  -- the executor's quantity is finite and positive, the ledger clamps it to the row's
  have hfin : ∃ p : ℚ, q' = .fin p := by
    rcases CloseSignal.qty_finite hparse with hnone | ⟨p, hp⟩
    · rw [hnone, Option.none_or, hopen.qty] at hq'
      exact ⟨qty, (Option.some.inj hq').symm⟩
    · rw [hp, Option.some_or] at hq'
      exact ⟨p, (Option.some.inj hq').symm⟩
  obtain ⟨p, rfl⟩ := hfin
  have hp : 0 < min p qty := lt_min (by simpa using hpos') hqty
  have hquantity : ∀ q, closeQuantity pos (some (.fin p)) = .ok q → q = .fin (min p qty) := by
    intro q hq
    simp only [closeQuantity, hopen.qty, need, Except.map, PyFloat.min_fin] at hq
    exact (Except.ok.inj hq).symm
  have hdust : ∀ q : ℚ, (PyFloat.fin qty - .fin q).max 0 ≤ dust ↔ qty - q ≤ dustQty := by
    intro q
    simp only [dust, dustQty, PyFloat.sub_fin, PyFloat.zero_eq, PyFloat.max_fin,
      PyFloat.fin_le_fin, max_le_iff, and_iff_left_iff_imp]
    intro _
    norm_num
  have hsettle : ∀ {q o trade}, Settles (s.log (logRow m.env m.data))
      (closeArgs m.env signal pos exit execution (.fin p)) pos q o trade →
      q = .fin (min p qty) ∧ o = .fin qty ∧
        Books signal.positionId side entry feePct (min p qty) trade ∧
        ∃ x, exit = some x ∧ trade.exitPrice = real x := by
    intro q o trade h
    have hq := hquantity q h.quantity
    have ho := h.openQty
    rw [hopen.qty] at ho
    cases ho
    have hrow := h.row
    rw [hq] at hrow
    obtain ⟨hbooks, -, hx⟩ := closingTrade_books hopen.entryPrice hopen.feePct hrow
    rw [hopen.side, ((s.positions.find?_some_iff _ _).mp hopen.found).2] at hbooks
    exact ⟨hq, rfl, hbooks, hx⟩
  cases hclose with
  | missing hfind => simp [closeArgs, hopen.found] at hfind
  | nothing hfind hq hle =>
    simp only [closeArgs, positions_log, hopen.found, Option.some.injEq] at hfind
    subst hfind
    rw [hquantity _ hq] at hle
    exact absurd hp (not_lt.mpr (by simpa using hle))
  | @full pos' q o trade h hfull trades hnew htrades =>
    have hpos : pos' = pos := by
      have := h.found
      simp only [closeArgs, positions_log, hopen.found, Option.some.injEq] at this
      exact this.symm
    subst hpos
    obtain ⟨rfl, rfl, hbooks, x, rfl, hx⟩ := hsettle h
    refine ⟨min p qty, trade, x, execution, ⟨htrades, hbooks, hp, min_le_right _ _, .inl ⟨?_, ?_⟩⟩,
      hfill, hx⟩
    · simp [closeArgs, Table.find?_erase]
    · exact (hdust _).mp hfull
  | @partly pos' q o trade merged h hpartly trades hnew htrades hmerge =>
    have hpos : pos' = pos := by
      have := h.found
      simp only [closeArgs, positions_log, hopen.found, Option.some.injEq] at this
      exact this.symm
    subst hpos
    obtain ⟨rfl, rfl, hbooks, x, rfl, hx⟩ := hsettle h
    have hrest : dustQty < qty - min p qty := not_le.mp fun hle => hpartly ((hdust _).mpr hle)
    have hmax : (PyFloat.fin qty - .fin (min p qty)).max 0 = .fin (qty - min p qty) := by
      have : (0 : ℚ) ≤ qty - min p qty := le_trans (by norm_num [dustQty]) hrest.le
      simp [this]
    refine ⟨min p qty, trade, x, execution, ⟨htrades, hbooks, hp, min_le_right _ _,
      .inr ⟨hrest, pos'.reduced (.fin (qty - min p qty)) merged, ?_⟩⟩, hfill, hx⟩
    refine ⟨?_, hopen.side, hopen.entryPrice, hopen.feePct, rfl⟩
    rw [positions_mark, hmax]
    exact find?_reduce _ _ hopen.found

/-- A position that is gone has no accepted CLOSE. -/
lemma not_accepted_of_gone (hparse : parseSignal m.data = .ok (.close signal))
    (hgone : s.positions.find? signal.positionId = none) : ¬ Accepted self s m := by
  intro hacc
  obtain ⟨-, o, s', -, hhandle⟩ := hacc.handled hparse
  cases hhandle with
  | closed hfind =>
    rw [positions_log, hgone] at hfind
    cases hfind

end Step

/-! ## Runs of closes -/

/-- Every message of the list is an accepted CLOSE of the position that satisfies `P`. -/
def AcceptedCloses (self : Executor) (positionId : String) (P : Env → CloseSignal → Prop) :
    Tables → List Delivery → Prop
  | _, [] => True
  | s, m :: ms =>
    (∃ signal, parseSignal m.data = .ok (.close signal) ∧ signal.positionId = positionId ∧
      P m.env signal) ∧ Accepted self s m ∧
    AcceptedCloses self positionId P (deliver self s m) ms

instance (self : Executor) (positionId : String) (P : Env → CloseSignal → Prop)
    [∀ env signal, Decidable (P env signal)] :
    ∀ s ms, Decidable (AcceptedCloses self positionId P s ms)
  | _, [] => inferInstanceAs (Decidable True)
  | s, m :: ms =>
    have : Decidable (∃ signal, parseSignal m.data = .ok (.close signal) ∧
        signal.positionId = positionId ∧ P m.env signal) :=
      decidable_of_iff ((closeOf (parseSignal m.data)).any fun signal =>
          decide (signal.positionId = positionId ∧ P m.env signal)) (by
        simp only [Option.any_eq_true, closeOf_eq_some, decide_eq_true_eq])
    have : Decidable (AcceptedCloses self positionId P (deliver self s m) ms) :=
      instDecidableAcceptedCloses self positionId P (deliver self s m) ms
    inferInstanceAs (Decidable (_ ∧ (reply self s m).isSome = true ∧ _))

/-- The amount in a column; a row without one counts as nothing. -/
def amount : Option PyFloat → ℚ
  | some (.fin q) => q
  | _ => 0

/-- The sum of a column over trade rows. -/
def total (column : TradeRow → Option PyFloat) (rows : List TradeRow) : ℚ :=
  (rows.map fun t => amount (column t)).sum

@[simp] lemma total_nil (column : TradeRow → Option PyFloat) : total column [] = 0 := rfl

@[simp] lemma total_cons (column : TradeRow → Option PyFloat) (t : TradeRow)
    (rows : List TradeRow) : total column (t :: rows) = amount (column t) + total column rows := by
  simp [total]

/-- Rows of closes of one position, each of a positive quantity. -/
def BooksAll (positionId side : String) (entry feePct : ℚ) (rows : List TradeRow) : Prop :=
  ∀ t ∈ rows, ∃ q, 0 < q ∧ Books positionId side entry feePct q t

section Runs

variable {self : Executor} {s : Tables} {ms : List Delivery} {positionId side : String}
  {entry feePct qty : ℚ} {P : Env → CloseSignal → Prop}

/-- What is left after a run of closes: the rest of the position, or no more than dust. -/
def Rest (s : Tables) (positionId side : String) (entry feePct rest : ℚ) : Prop :=
  (0 < rest ∧ ∃ pos, OpenAt s positionId side entry feePct rest pos) ∨
    (s.positions.find? positionId = none ∧ 0 ≤ rest ∧ rest ≤ dustQty)

/-- Every exit price that a close with `P` of a position on `side` can record satisfies `Q`. -/
def ExitsAt (self : Executor) (side : String) (P : Env → CloseSignal → Prop) (Q : PyFloat → Prop) :
    Prop :=
  ∀ env signal, P env signal → ∀ s pos x execution, pos.side = side →
    self.closeFill signal pos (fillAt env s (.close signal)) = .ok (some x, execution) → Q x

theorem closes_run {pos : PositionRow} {Q : PyFloat → Prop} (hexits : ExitsAt self side P Q)
    (hopen : OpenAt s positionId side entry feePct qty pos) (hqty : 0 < qty)
    (hms : AcceptedCloses self positionId P s ms) :
    ∃ rows, (deliverAll self s ms).trades.rows = s.trades.rows ++ rows ∧
      rows.length = ms.length ∧ BooksAll positionId side entry feePct rows ∧
      (∀ t ∈ rows, ∃ x, Q x ∧ t.exitPrice = real x) ∧
      Rest (deliverAll self s ms) positionId side entry feePct
        (qty - total TradeRow.qty rows) := by
  induction ms generalizing s pos qty with
  | nil =>
    refine ⟨[], by simp [deliverAll], rfl, by simp [BooksAll], by simp,
      .inl ⟨by simpa using hqty, pos, ?_⟩⟩
    simpa [deliverAll] using hopen
  | cons m ms ih =>
    obtain ⟨⟨signal, hparse, rfl, hP⟩, hacc, hms⟩ := hms
    obtain ⟨q, t, x, execution, hstep, hfill, hx⟩ := close_step hparse hacc hopen hqty
    have hQ : Q x := hexits _ _ hP s pos x execution hopen.side hfill
    rcases hstep.rest with ⟨hgone, hdust⟩ | ⟨hmore, pos', hopen'⟩
    · -- the position is gone, so nothing more is accepted
      cases ms with
      | nil =>
        refine ⟨[t], hstep.rows, rfl, ?_, ?_, .inr ⟨hgone, ?_⟩⟩
        · intro t' ht'
          rw [List.mem_singleton.mp ht']
          exact ⟨q, hstep.positive, hstep.books⟩
        · intro t' ht'
          rw [List.mem_singleton.mp ht']
          exact ⟨x, hQ, hx⟩
        · simp only [total_cons, total_nil, hstep.books.qty, amount, add_zero]
          exact ⟨sub_nonneg.mpr hstep.le, hdust⟩
      | cons m' ms =>
        obtain ⟨⟨signal', hparse', hid, -⟩, hacc', -⟩ := hms
        exact absurd hacc' (not_accepted_of_gone hparse' (hid ▸ hgone))
    · have hpos : 0 < qty - q := lt_trans (by norm_num [dustQty]) hmore
      obtain ⟨rows, hrows, hlen, hbooks, hprices, hrest⟩ := ih hopen' hpos hms
      refine ⟨t :: rows, ?_, by simp [hlen], ?_, ?_, ?_⟩
      · change (deliverAll self (deliver self s m) ms).trades.rows = _
        rw [hrows, hstep.rows, List.append_assoc]
        rfl
      · intro t' ht'
        rcases List.mem_cons.mp ht' with rfl | ht'
        · exact ⟨q, hstep.positive, hstep.books⟩
        · exact hbooks t' ht'
      · intro t' ht'
        rcases List.mem_cons.mp ht' with rfl | ht'
        · exact ⟨x, hQ, hx⟩
        · exact hprices t' ht'
      · rw [total_cons, hstep.books.qty, amount, ← sub_sub]
        exact hrest

/-- At one exit price the PnL and the fee of a run are those of its traded quantity. -/
theorem total_of_same_exit {rows : List TradeRow} {x : ℚ}
    (hbooks : BooksAll positionId side entry feePct rows)
    (hexit : ∀ t ∈ rows, t.exitPrice = some (.fin x)) :
    total TradeRow.pnl rows = pnlOf side entry x feePct (total TradeRow.qty rows) ∧
      total TradeRow.fee rows = feeOf entry x feePct (total TradeRow.qty rows) := by
  induction rows with
  | nil => simp [pnlOf, feeOf]
  | cons t rows ih =>
    obtain ⟨q, -, hb⟩ := hbooks t List.mem_cons_self
    have hx := hexit t List.mem_cons_self
    obtain ⟨ihp, ihf⟩ := ih (fun t ht => hbooks t (List.mem_cons_of_mem _ ht))
      fun t ht => hexit t (List.mem_cons_of_mem _ ht)
    simp only [total_cons, hb.qty, hb.pnl x hx, hb.fee x hx, amount, ihp, ihf]
    constructor
    · unfold pnlOf feeOf
      ring
    · unfold feeOf
      ring

end Runs

/-- The open quantity of a position; nothing when it is gone. -/
def remaining (s : Tables) (positionId : String) : ℚ :=
  match s.positions.find? positionId with
  | some pos => amount pos.qty
  | none => 0

/-- Partial closes conserve quantity, PnL and fees. -/
theorem partial_closes_conserve (self : Executor) (s : Tables) (pos : PositionRow)
    (entry feePct qty : ℚ) (ms : List Delivery)
    (hopen : OpenAt s pos.positionId pos.side entry feePct qty pos) (hqty : 0 < qty)
    (hms : AcceptedCloses self pos.positionId (fun _ _ => True) s ms) :
    ∃ rows, (deliverAll self s ms).trades.rows = s.trades.rows ++ rows ∧
      (∀ t ∈ rows, t.positionId = pos.positionId) ∧
      (∀ pos', (deliverAll self s ms).positions.find? pos.positionId = some pos' →
        total TradeRow.qty rows + remaining (deliverAll self s ms) pos.positionId = qty) ∧
      ((deliverAll self s ms).positions.find? pos.positionId = none →
        total TradeRow.qty rows ≤ qty ∧ qty ≤ total TradeRow.qty rows + dustQty ∧
        ∀ x, (∀ t ∈ rows, t.exitPrice = some (.fin x)) →
          ∀ m signal t, parseSignal m.data = .ok (.close signal) →
            signal.positionId = pos.positionId → Accepted self s m →
            (deliver self s m).trades.rows = s.trades.rows ++ [t] →
            t.qty = some (.fin (total TradeRow.qty rows)) → t.exitPrice = some (.fin x) →
            total TradeRow.pnl rows = amount t.pnl ∧ total TradeRow.fee rows = amount t.fee) := by
  have hexits : ExitsAt self pos.side (fun _ _ => True) fun _ => True :=
    fun _ _ _ _ _ _ _ _ _ => trivial
  obtain ⟨rows, hrows, -, hbooks, -, hrest⟩ := closes_run hexits hopen hqty hms
  refine ⟨rows, hrows, ?_, ?_, ?_⟩
  · intro t ht
    obtain ⟨q, -, hb⟩ := hbooks t ht
    exact hb.positionId
  · intro pos' hfind
    rcases hrest with ⟨-, pos'', hopen'⟩ | ⟨hgone, -, -⟩
    · rw [remaining, hopen'.found]
      simp [hopen'.qty, amount]
    · rw [hgone] at hfind
      cases hfind
  · intro hgone
    rcases hrest with ⟨-, pos'', hopen'⟩ | ⟨-, hnonneg, hdust⟩
    · rw [hopen'.found] at hgone
      cases hgone
    refine ⟨by linarith, by linarith, ?_⟩
    intro x hexit m signal t hparse hid hacc ht hq hx
    rw [← hid] at hopen
    obtain ⟨q, t', -, -, hstep, -, -⟩ := close_step hparse hacc hopen hqty
    have htt : t' = t := by
      have := hstep.rows.symm.trans ht
      simpa using List.append_cancel_left this
    subst htt
    have hqq := hstep.books.qty.symm.trans hq
    simp only [Option.some.injEq, PyFloat.fin.injEq] at hqq
    obtain ⟨hp, hf⟩ := total_of_same_exit hbooks hexit
    rw [hp, hf, hstep.books.pnl x hx, hstep.books.fee x hx, hqq]
    exact ⟨rfl, rfl⟩

/-- A position of ten that a test database holds. -/
def tenOpen : PositionRow where
  positionId := "p1"
  alphaId := "alpha"
  signalId := "open-1"
  symbol := "BTCUSDT"
  side := "LONG"
  entryPrice := some (.fin 100)
  qty := some (.fin 10)
  tp := none
  sl := none
  leverage := 1
  openedAt := "2024-01-01T00:00:00Z"
  metadata := .chars "{}"
  exchange := "binance"
  feePct := some (.fin (1 / 1000))

def tenOpenTables : Tables := { Tables.empty with positions := ⟨[tenOpen], by simp⟩ }

/-- A CLOSE of that position, of a quantity or of the rest. -/
def closeTen (signalId : String) (qty : Option Text) : Delivery where
  data := {
    type := "CLOSE", alphaId := "alpha", signalId := signalId, positionId := "p1"
    timestamp := "2024-01-01T01:00:00Z", exitPrice := some (.chars "110"), qty := qty }
  env := { now := "2024-01-01T01:00:00", uuid := signalId }

theorem partial_closes_conserve_tenOpen :
    let ms := [closeTen "close-1" (some (.chars "4")), closeTen "close-2" none]
    ∃ rows, (deliverAll {} tenOpenTables ms).trades.rows = tenOpenTables.trades.rows ++ rows ∧
      (∀ t ∈ rows, t.positionId = "p1") ∧
      ((deliverAll {} tenOpenTables ms).positions.find? "p1" = none →
        total TradeRow.qty rows ≤ 10 ∧ 10 ≤ total TradeRow.qty rows + dustQty) := by
  obtain ⟨rows, hrows, hids, -, hgone⟩ := partial_closes_conserve {} tenOpenTables tenOpen 100
    (1 / 1000) 10 [closeTen "close-1" (some (.chars "4")), closeTen "close-2" none]
    ⟨rfl, rfl, rfl, rfl, rfl⟩ (by norm_num) (by decide +kernel)
  exact ⟨rows, hrows, hids, fun h => ⟨(hgone h).1, (hgone h).2.1⟩⟩

end PaperTrade.Worker
