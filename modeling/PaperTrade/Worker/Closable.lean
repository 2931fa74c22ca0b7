import PaperTrade.Worker.Slippage

/-!
# Open positions stay closable

`close_position` needs more of a row than the parser and the executor check: a positive quantity, an
entry price, an opening time that is an aware timestamp, and an id that no trade has taken. `Sound`
is that invariant. An accepted OPEN establishes it for its row only when it meets `SoundOpen`;
nothing else that a message can do breaks it, given that fresh ids are fresh.
-/

namespace PaperTrade.Worker

open PaperTrade.Runtime

/-- `close_position` can close this row. -/
structure Sound (s : Tables) (p : PositionRow) : Prop where
  qty : ∃ q : ℚ, p.qty = some (.fin q) ∧ 0 < q
  entryPrice : ∃ x, p.entryPrice = some x
  opened : ∃ d, DateTime.parse p.openedAt = some d ∧ d.isAware = true
  untraded : s.trades.contains p.positionId = false

/-- Every open position can be closed. -/
def AllSound (s : Tables) : Prop := ∀ p ∈ s.positions.rows, Sound s p

lemma AllSound.congr {s s' : Tables} (h : AllSound s) (hpos : s'.positions = s.positions)
    (htrades : s'.trades = s.trades) : AllSound s' := by
  intro p hp
  rw [hpos] at hp
  obtain ⟨hq, he, ho, hu⟩ := h p hp
  exact ⟨hq, he, ho, by rwa [htrades]⟩

/-! ## `close_position` -/

/-- The guards of an OPEN: it is neither a duplicate nor blocked nor refused by the table. -/
structure Admitted (ex : Executor) (s : Tables) (m : Delivery) (signal : OpenSignal) : Prop where
  fresh : ¬ Duplicate s m.data
  unblocked : ¬ Blocks ex s signal
  leverage : fitsInt64 signal.leverage = true
  untaken : s.positions.contains
    (ex.openRow m.env signal (fillAt m.env s (.open signal))).positionId = false

/-- A CLOSE of the whole position: no quantity, a positive exit price, an aware timestamp inside the
calendar, an id that the audit log has not seen. -/
structure FullClose (s : Tables) (p : PositionRow) (data : RawSignal) (signal : CloseSignal) :
    Prop where
  parse : parseSignal data = .ok (.close signal)
  positionId : signal.positionId = p.positionId
  qty : signal.qty = none
  exitPrice : ∃ x : ℚ, signal.exitPrice = some (.fin x) ∧ 0 < x
  timestamp : ∃ d, DateTime.parse signal.timestamp = some d ∧ d.isAware = true ∧
    (isTcbs (exchangeOr p.exchange) = true →
      ∀ opened, DateTime.parse p.openedAt = some opened → EndsInCalendar opened d)
  fresh : ∀ r ∈ s.signals, r.signalId ≠ data.signalIdOr

/-- The position is gone, with one trade row for its quantity and a processed row in the audit
log. -/
structure Closed (s s' : Tables) (p : PositionRow) (m : Delivery) : Prop where
  trade : ∃ t, s'.trades.rows = s.trades.rows ++ [t] ∧ t.positionId = p.positionId ∧ t.qty = p.qty
  positions : s'.positions = s.positions.erase p.positionId
  signals : s'.signals = s.signals ++ [{ logRow m.env m.data with processed := true }]

/-- A row with every value `closingTrade` reads has a trade row. -/
lemma closingTrade_ok {p : PositionRow} (x q : PyFloat) (reason tradeId : String) (metadata : Text)
    {closedAt : String} {opened closed : DateTime} (hentry : ∃ e, p.entryPrice = some e)
    (hopened : DateTime.parse p.openedAt = some opened)
    (hclosed : DateTime.parse closedAt = some closed) (hkind : closed.isAware = opened.isAware)
    (hend : isTcbs (exchangeOr p.exchange) = true → EndsInCalendar opened closed) :
    ∃ t, closingTrade p (some x) q reason closedAt metadata tradeId = .ok t ∧ t.qty = real q := by
  obtain ⟨e, he⟩ := hentry
  obtain ⟨h, hh⟩ := tradeDurationHours_ok hkind hend
  simp only [closingTrade, need, he, isoTime, hopened, hclosed, hh, bind, Except.bind, pure,
    Except.pure]
  exact ⟨_, rfl, rfl⟩

/-- Marking the id of the last row leaves the rows before it alone when none of them has it. -/
lemma signals_log_mark {s : Tables} {env : Env} {data : RawSignal}
    (hfresh : ∀ r ∈ s.signals, r.signalId ≠ data.signalIdOr) (error : Option PyError) :
    ((s.log (logRow env data)).mark data.signalIdOr error).signals =
      s.signals ++ [{ logRow env data with processed := true, error := error }] := by
  simp only [Tables.mark, Tables.log, List.map_append, List.map_cons, List.map_nil]
  congr 1
  · refine (List.map_congr_left fun r hr => ?_).trans (List.map_id _)
    exact if_neg (hfresh r hr)
  · simp [markRow, logRow]

theorem close_sound {self : Executor} {s : Tables} {p : PositionRow} {m : Delivery}
    {signal : CloseSignal} (hp : p ∈ s.positions.rows) (hsound : Sound s p)
    (hm : FullClose s p m.data signal) :
    Accepted self s m ∧ Closed s (deliver self s m) p m := by
  obtain ⟨q, hq, hq0⟩ := hsound.qty
  obtain ⟨x, hx, hx0⟩ := hm.exitPrice
  obtain ⟨closed, hclosed, haware, hend⟩ := hm.timestamp
  obtain ⟨opened, hopened, hopenedAware⟩ := hsound.opened
  have hfind : (s.log (logRow m.env m.data)).positions.find? signal.positionId = some p :=
    (s.positions.find?_some_iff _ _).mpr ⟨hp, hm.positionId.symm⟩
  -- neither the executor nor the ledger refuses
  have hcheck : Executor.checkCloseQty signal p = .ok (.fin q) := by
    simp only [Executor.checkCloseQty, hm.qty, Option.none_or, hq, need, bind, Except.bind, pure,
      Except.pure, PyFloat.zero_eq, PyFloat.fin_le_fin, not_le.mpr hq0, if_false, dust,
      PyFloat.add_fin, PyFloat.fin_lt_fin]
    rw [if_neg (by norm_num)]
  have hfill : ∃ y execution, self.closeFill signal p (fillAt m.env s (.close signal)) =
      .ok (some y, execution) := by
    have href : Executor.closeRefPrice signal p = some (.fin x) := by
      simp [Executor.closeRefPrice, hx, hx0.ne']
    unfold Executor.closeFill
    split
    · exact ⟨_, _, rfl⟩
    · split
      · exact ⟨_, _, by rw [href]⟩
      · exact ⟨_, _, by rw [href]; rfl⟩
  obtain ⟨y, execution, hfill⟩ := hfill
  have hquantity : closeQuantity p (some (.fin q)) = .ok (.fin q) := by
    simp [closeQuantity, hq, need, Except.map]
  have hdust : (PyFloat.fin q - .fin q).max 0 ≤ dust := by
    simp only [PyFloat.sub_fin, sub_self, PyFloat.zero_eq, PyFloat.max_fin, max_self, dust,
      PyFloat.fin_le_fin]
    norm_num
  obtain ⟨trade, htrade, htq⟩ := closingTrade_ok y (.fin q) signal.reason p.positionId
    (Executor.closeMetadata signal p (some y) execution)
    hsound.entryPrice hopened hclosed (haware.trans hopenedAware.symm)
    fun h => hend h opened hopened
  obtain ⟨htid, htpos⟩ := closingTrade_ids htrade
  have hsettles : Settles (s.log (logRow m.env m.data))
      (closeArgs m.env signal p (some y) execution (.fin q)) p (.fin q) (.fin q) trade :=
    ⟨hfind, hquantity, by simpa using hq0, hq, by rw [if_pos hdust]; exact htrade⟩
  have hnew : s.trades.contains trade.tradeId = false := by rw [htid, hsound.untraded]
  have hdup : ¬ Duplicate s m.data := by
    rintro ⟨-, hproc⟩
    obtain ⟨r, hr, hid⟩ := List.any_eq_true.mp hproc
    simp only [Bool.and_eq_true, decide_eq_true_eq] at hid
    exact hm.fresh r hr hid.1
  have hhandled : ∀ r s', Handle self m.env (s.log (logRow m.env m.data)) (.close signal)
      (fillAt m.env s (.close signal)) r s' →
      (∃ o, r = .ok o) ∧ ∃ trades : Table TradeRow.tradeId,
        trades.rows = s.trades.rows ++ [trade] ∧ s' = { s.log (logRow m.env m.data) with
          trades := trades, positions := s.positions.erase p.positionId } := by
    intro r s' h
    cases h with
    | missing hf =>
      rw [hfind] at hf
      cases hf
    | refused hf hc =>
      rw [hfind] at hf
      cases hf
      rw [hcheck] at hc
      cases hc
    | unfilled hf hc hl =>
      rw [hfind] at hf
      cases hf
      rw [hfill] at hl
      cases hl
    | failed hf hc hl hcl =>
      rw [hfind] at hf
      cases hf
      rw [hcheck] at hc
      cases hc
      rw [hfill] at hl
      cases hl
      rcases hcl.of_settles hsettles with ⟨h, -⟩ | ⟨-, trades, htrades, hfull, -⟩
      · rw [show (s.log _).trades = s.trades from rfl, hnew] at h
        cases h
      · cases (hfull hdust).1
    | closed hf hc _ hl hcl =>
      rw [hfind] at hf
      cases hf
      rw [hcheck] at hc
      cases hc
      rw [hfill] at hl
      cases hl
      rcases hcl.of_settles hsettles with ⟨h, -⟩ | ⟨-, trades, htrades, hfull, -⟩
      · rw [show (s.log _).trades = s.trades from rfl, hnew] at h
        cases h
      · exact ⟨⟨_, rfl⟩, trades, htrades, by rw [(hfull hdust).2, ← hm.positionId]; rfl⟩
  have hd := deliver_cases self m s
  unfold Accepted
  generalize deliver self s m = s', reply self s m = r at hd
  cases hd with
  | duplicate h => exact absurd h hdup
  | unparsable _ hparse =>
    rw [hm.parse] at hparse
    cases hparse
  | rejected _ hparse h =>
    rw [hm.parse] at hparse
    cases hparse
    obtain ⟨⟨o, ho⟩, -⟩ := hhandled _ _ h
    cases ho
  | accepted _ hparse h =>
    rw [hm.parse] at hparse
    cases hparse
    obtain ⟨-, trades, htrades, rfl⟩ := hhandled _ _ h
    exact ⟨rfl, ⟨trade, htrades, htpos, by rw [htq, hq, real_fin]⟩, rfl,
      signals_log_mark hm.fresh none⟩

/-- An OPEN with this timestamp, and a CLOSE of the whole position. -/
def openAndClose (timestamp : Option String) : Delivery × Delivery :=
  ({ data := {
      type := "OPEN", alphaId := "alpha", signalId := "open-1", symbol := "BTCUSDT", side := "LONG"
      timestamp := timestamp, positionId := "p1"
      entry := some (.chars "100"), qty := some (.chars "10") }
     env := { now := "2024-01-01T00:00:00", uuid := "u1" } },
   { data := {
      type := "CLOSE", alphaId := "alpha", signalId := "close-1", positionId := "p1"
      timestamp := "2024-01-01T01:00:00Z", exitPrice := some (.chars "110") }
     env := { now := "2024-01-01T01:00:00", uuid := "u2" } })

end PaperTrade.Worker
