import PaperTrade.Worker.Closable

/-!
# Messages that get through

A publisher that knows the state of the worker can rely on two messages: a CLOSE of a whole position
without a price of its own, which is booked at the entry price (`deliver_wholeClose`), and an OPEN of a
symbol that the alpha does not hold (`deliver_freshOpen`).
-/

namespace PaperTrade.Worker

open PaperTrade.Runtime

section Acceptance

variable {self : Executor} {s s' : Tables} {m : Delivery}

/-- The audit log has not seen the id of the message. -/
def Unseen (s : Tables) (data : RawSignal) : Prop := ∀ r ∈ s.signals, r.signalId ≠ data.signalIdOr

lemma Unseen.not_duplicate {data : RawSignal} (h : Unseen s data) : ¬ Duplicate s data := by
  rintro ⟨-, hprocessed⟩
  obtain ⟨r, hr, hid⟩ := List.any_eq_true.mp hprocessed
  simp only [Bool.and_eq_true, decide_eq_true_eq] at hid
  exact h r hr hid.1

/-! ## CLOSE -/

/-- A CLOSE of the whole position, at a price that the signal or the row has. -/
structure WholeClose (s : Tables) (p : PositionRow) (data : RawSignal) (signal : CloseSignal) :
    Prop where
  parse : parseSignal data = .ok (.close signal)
  positionId : signal.positionId = p.positionId
  qty : signal.qty = none
  price : ∃ x, Executor.closeRefPrice signal p = some x
  timestamp : ∃ d, DateTime.parse signal.timestamp = some d ∧ d.isAware = true ∧
    (isTcbs (exchangeOr p.exchange) = true →
      ∀ opened, DateTime.parse p.openedAt = some opened → EndsInCalendar opened d)
  fresh : Unseen s data

/-- Such a close has a price. -/
lemma closeFill_of_price (self : Executor) {signal : CloseSignal} {p : PositionRow}
    (fill : Option FillPrice)
    (h : ∃ x, Executor.closeRefPrice signal p = some x) :
    ∃ y execution, self.closeFill signal p fill = .ok (some y, execution) := by
  obtain ⟨x, hx⟩ := h
  unfold Executor.closeFill
  cases fill with
  | some fill => exact ⟨_, _, rfl⟩
  | none =>
    dsimp only
    split
    · exact ⟨x, [], by rw [hx]⟩
    · exact ⟨_, [], by rw [hx]; rfl⟩

/-- Nothing in the executor refuses it, and it is booked for the whole quantity. -/
lemma ProcessClose.whole {signal : CloseSignal} {p : PositionRow} {env : Env} {fill : Option FillPrice}
    {r : Except PyError Outcome} (h : ProcessClose self env s signal fill r s')
    (hp : p ∈ s.positions.rows) (hsound : Sound s p) (hid : signal.positionId = p.positionId)
    (hqty : signal.qty = none) (hprice : ∃ x, Executor.closeRefPrice signal p = some x)
    (htime : ∃ d, DateTime.parse signal.timestamp = some d ∧ d.isAware = true ∧
      (isTcbs (exchangeOr p.exchange) = true →
        ∀ opened, DateTime.parse p.openedAt = some opened → EndsInCalendar opened d)) :
    (∃ o, r = .ok o) ∧ ∃ (trade : TradeRow) (trades : Table TradeRow.tradeId),
      trade.tradeId = p.positionId ∧ trades.rows = s.trades.rows ++ [trade] ∧
        s' = { s with trades := trades, positions := s.positions.erase p.positionId } := by
  obtain ⟨q, hq, hpos⟩ := hsound.qty
  obtain ⟨opened, hopened, hopenedAware⟩ := hsound.opened
  obtain ⟨closed, hclosed, haware, hend⟩ := htime
  have hfind : s.positions.find? signal.positionId = some p :=
    (s.positions.find?_some_iff _ _).mpr ⟨hp, hid.symm⟩
  have hcheck : Executor.checkCloseQty signal p = .ok (.fin q) := by
    simp only [Executor.checkCloseQty, hqty, Option.none_or, hq, need, bind, Except.bind, pure,
      Except.pure, PyFloat.zero_eq, PyFloat.fin_le_fin, not_le.mpr hpos, if_false, dust,
      PyFloat.add_fin, PyFloat.fin_lt_fin]
    rw [if_neg (by norm_num)]
  have hdust : (PyFloat.fin q - .fin q).max 0 ≤ dust := by
    simp only [PyFloat.sub_fin, sub_self, PyFloat.zero_eq, PyFloat.max_fin, max_self, dust,
      PyFloat.fin_le_fin]
    norm_num
  have hquantity : closeQuantity p (some (.fin q)) = .ok (.fin q) := by
    simp [closeQuantity, hq, need, Except.map]
  obtain ⟨y, execution, hfill⟩ := closeFill_of_price self fill hprice
  obtain ⟨trade, htrade, -⟩ := closingTrade_ok y (.fin q) signal.reason p.positionId
    (Executor.closeMetadata signal p (some y) execution) hsound.entryPrice hopened hclosed
    (haware.trans hopenedAware.symm) fun h => hend h opened hopened
  have htid : trade.tradeId = p.positionId := (closingTrade_ids htrade).1
  have hsettles : Settles s (closeArgs env signal p (some y) execution (.fin q)) p (.fin q) (.fin q)
      trade := by
    refine ⟨hfind, hquantity, by simpa using hpos, hq, ?_⟩
    rw [if_pos hdust]
    exact htrade
  have hbooked : ∀ r s', ClosePosition s (closeArgs env signal p (some y) execution (.fin q)) r s' →
      r = .ok () ∧ ∃ trades : Table TradeRow.tradeId, trades.rows = s.trades.rows ++ [trade] ∧
        s' = { s with trades := trades, positions := s.positions.erase p.positionId } := by
    intro r s' hclose
    rcases hclose.of_settles hsettles with ⟨htaken, -⟩ | ⟨-, trades, htrades, hfull, -⟩
    · rw [htid, hsound.untraded] at htaken
      cases htaken
    · obtain ⟨hr, hs'⟩ := hfull hdust
      refine ⟨hr, trades, htrades, ?_⟩
      rw [hs', ← hid]
      rfl
  cases h with
  | missing hf =>
    rw [hfind] at hf
    cases hf
  | refused hf hc =>
    rw [hfind] at hf
    cases hf
    rw [hcheck] at hc
    cases hc
  | unfilled hf _ hl =>
    rw [hfind] at hf
    cases hf
    rw [hfill] at hl
    cases hl
  | failed hf hc hl hclose =>
    rw [hfind] at hf
    cases hf
    rw [hcheck] at hc
    cases hc
    rw [hfill] at hl
    cases hl
    cases (hbooked _ _ hclose).1
  | closed hf hc _ hl hclose =>
    rw [hfind] at hf
    cases hf
    rw [hcheck] at hc
    cases hc
    rw [hfill] at hl
    cases hl
    obtain ⟨-, trades, htrades, hs'⟩ := hbooked _ _ hclose
    exact ⟨⟨_, rfl⟩, trade, trades, htid, htrades, hs'⟩

/-- What the CLOSE leaves: the position is gone, one trade has its id, the log has one row more. -/
structure WholeClosed (s s' : Tables) (p : PositionRow) (data : RawSignal) : Prop where
  positions : s'.positions = s.positions.erase p.positionId
  trades : ∃ trade : TradeRow, trade.tradeId = p.positionId ∧ s'.trades.rows = s.trades.rows ++ [trade]
  signals : ∃ row : SignalRow, row.signalId = data.signalIdOr ∧ s'.signals = s.signals ++ [row]

theorem deliver_wholeClose {p : PositionRow} {signal : CloseSignal} (hp : p ∈ s.positions.rows)
    (hsound : Sound s p) (hm : WholeClose s p m.data signal) :
    WholeClosed s (deliver self s m) p m.data := by
  have hlogged : Sound (s.log (logRow m.env m.data)) p :=
    ⟨hsound.qty, hsound.entryPrice, hsound.opened, hsound.untraded⟩
  have hd := deliver_cases self m s
  generalize deliver self s m = s', reply self s m = r at hd
  cases hd with
  | duplicate h => exact absurd h hm.fresh.not_duplicate
  | unparsable _ hparse =>
    rw [hm.parse] at hparse
    cases hparse
  | rejected _ hparse h =>
    rw [hm.parse] at hparse
    cases hparse
    obtain ⟨⟨o, ho⟩, -⟩ := ProcessClose.whole h hp hlogged hm.positionId hm.qty hm.price hm.timestamp
    cases ho
  | accepted _ hparse h =>
    rw [hm.parse] at hparse
    cases hparse
    obtain ⟨-, trade, trades, htid, htrades, rfl⟩ :=
      ProcessClose.whole h hp hlogged hm.positionId hm.qty hm.price hm.timestamp
    exact ⟨rfl, ⟨trade, htid, htrades⟩, _, rfl, signals_log_mark hm.fresh none⟩

/-! ## OPEN -/

/-- An OPEN of a symbol that the alpha does not hold. -/
structure FreshOpen (ex : Executor) (s : Tables) (m : Delivery) (signal : OpenSignal) : Prop where
  parse : parseSignal m.data = .ok (.open signal)
  unheld : ∀ p ∈ s.positions.rows, p.alphaId = signal.alphaId → p.symbol ≠ signal.symbol
  leverage : fitsInt64 signal.leverage = true
  untaken : ∀ p ∈ s.positions.rows,
    p.positionId ≠ (ex.openRow m.env signal (fillAt m.env s (.open signal))).positionId
  fresh : Unseen s m.data

/-- What the OPEN leaves: one position more, and one row in the log. -/
structure FreshOpened (ex : Executor) (s s' : Tables) (m : Delivery) (signal : OpenSignal) :
    Prop where
  positions : s'.positions.rows = s.positions.rows ++
    [ex.openRow m.env signal (fillAt m.env s (.open signal))]
  trades : s'.trades = s.trades
  signals : ∃ row : SignalRow, row.signalId = m.data.signalIdOr ∧ s'.signals = s.signals ++ [row]

lemma FreshOpen.not_blocks {signal : OpenSignal} (h : FreshOpen self s m signal) :
    ¬ Blocks self s signal := by
  rintro ⟨hheld, -, -⟩
  obtain ⟨p, hp⟩ := Option.isSome_iff_exists.mp hheld
  have hfound := List.find?_some hp
  simp only [Bool.and_eq_true, decide_eq_true_eq] at hfound
  exact h.unheld p (List.mem_of_find?_eq_some hp) hfound.1 hfound.2

theorem deliver_freshOpen {signal : OpenSignal} (hm : FreshOpen self s m signal) :
    FreshOpened self s (deliver self s m) m signal := by
  have hblocks : ¬ Blocks self (s.log (logRow m.env m.data)) signal := hm.not_blocks
  have huntaken : (s.log (logRow m.env m.data)).positions.contains
      (self.openRow m.env signal (fillAt m.env s (.open signal))).positionId = false :=
    (s.positions.not_contains_iff _).mpr hm.untaken
  have hd := deliver_cases self m s
  generalize deliver self s m = s', reply self s m = r at hd
  cases hd with
  | duplicate h => exact absurd h hm.fresh.not_duplicate
  | unparsable _ hparse =>
    rw [hm.parse] at hparse
    cases hparse
  | rejected _ hparse h =>
    rw [hm.parse] at hparse
    cases hparse
    cases h with
    | blocked h => exact absurd h hblocks
    | leverage _ hfits =>
      rw [hm.leverage] at hfits
      cases hfits
    | taken _ _ htaken =>
      rw [huntaken] at htaken
      cases htaken
  | accepted _ hparse h =>
    rw [hm.parse] at hparse
    cases hparse
    cases h with
    | opened _ _ _ hrows => exact ⟨hrows, rfl, _, rfl, signals_log_mark hm.fresh none⟩

/-! ## Messages that do not parse -/

/-- A message that does not parse leaves its row in the log. -/
lemma deliver_refused (self : Executor) (m : Delivery) {e : PyError}
    (hparse : parseSignal m.data = .error e) (hfresh : Unseen s m.data) :
    (deliver self s m).positions = s.positions ∧ (deliver self s m).trades = s.trades ∧
      ∃ row : SignalRow, row.signalId = m.data.signalIdOr ∧
        (deliver self s m).signals = s.signals ++ [row] := by
  have hd := deliver_cases self m s
  generalize deliver self s m = s', reply self s m = r at hd
  cases hd with
  | duplicate h => exact absurd h hfresh.not_duplicate
  | unparsable _ _ => exact ⟨rfl, rfl, _, rfl, signals_log_mark hfresh _⟩
  | rejected _ hparse' _ =>
    rw [hparse] at hparse'
    cases hparse'
  | accepted _ hparse' _ =>
    rw [hparse] at hparse'
    cases hparse'

end Acceptance

end PaperTrade.Worker
