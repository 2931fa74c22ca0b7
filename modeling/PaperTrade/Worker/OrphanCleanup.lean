import PaperTrade.Worker.Acceptance
import PaperTrade.Worker.Redelivery

/-!
# Closing orphaned positions

`scripts/close_orphaned_positions.py` publishes one CLOSE for every open position of an alpha that is
inactive, at the price by which the position was marked last. The ids of the signals follow from those of
the positions, so the script may run again before the worker has drained the stream, and the stream may
deliver a message again: every orphan is closed once and for its whole quantity, and the worker touches no
other position (`cleanup_closes`).

The `status` of a position is only printed and is left out.
-/

namespace PaperTrade.Worker.OrphanCleanup

open PaperTrade.Runtime

/-! ## The script -/

/-- The alpha is marked inactive. -/
def isInactive (s : Tables) (alphaId : String) : Bool :=
  s.alphas.rows.any fun a => a.alphaId = alphaId ∧ a.status = "inactive"

/-- `load_positions`. -/
def loadPositions (s : Tables) : List PositionRow :=
  (s.positions.rows.filter fun p => isInactive s p.alphaId).insertionSort fun p q =>
    p.alphaId < q.alphaId ∨ p.alphaId = q.alphaId ∧ p.symbol ≤ q.symbol

/-- `signal_id`. -/
def orphanId (p : PositionRow) : String := "orphan-close-" ++ p.positionId

/-- `build_signal`. -/
def buildSignal (p : PositionRow) (mark : PyFloat) (now uuid : String) : RawSignal where
  type := some "CLOSE"
  alphaId := some p.alphaId
  signalId := some (orphanId p)
  positionId := some p.positionId
  symbol := some p.symbol
  reason := some "ALPHA_DISABLED_ORPHAN"
  timestamp := some now
  exitPrice := some (.num mark)
  metadata := some (.json (.obj
    [("orphan_cleanup", .bool true), ("mark_price", .float mark), ("uuid", .str uuid)]))

/-- `not marks.get(p["symbol"], 0) > 0`. -/
def noMark (marks : Dict String PyFloat) (p : PositionRow) : Bool :=
  !decide (0 < (marks.get? p.symbol).getD 0)

/-- `not p["qty"] or not p["entry_price"]`. -/
def unmarkable (p : PositionRow) : Bool :=
  !(p.qty.any PyFloat.truthy) || !(p.entryPrice.any PyFloat.truthy)

/-- The signals that `main --execute` publishes; `none` is an abort. `uuid` is what `uuid4` returns for a
position. -/
def publishes (s : Tables) (marks : Dict String PyFloat) (now : String) (uuid : PositionRow → String) :
    Option (List RawSignal) :=
  let positions := loadPositions s
  if positions.any (noMark marks) then none
  else if positions.any unmarkable then none
  else some (positions.map fun p => buildSignal p ((marks.get? p.symbol).getD 0) now (uuid p))

/-! ## What a delivery of the stream closes -/

/-- The time of a run of the script is a time that the worker takes for the position. -/
def TimeFor (p : PositionRow) (now : String) : Prop :=
  ∃ d, DateTime.parse now = some d ∧ d.isAware = true ∧
    (isTcbs (exchangeOr p.exchange) = true →
      ∀ opened, DateTime.parse p.openedAt = some opened → EndsInCalendar opened d)

/-- The message closes an orphan. -/
def Closes (p : PositionRow) (data : RawSignal) : Prop :=
  ∃ (mark : ℚ) (now uuid : String), 0 < mark ∧ TimeFor p now ∧ data = buildSignal p (.fin mark) now uuid

/-- An orphan that can be closed, of which the log has not heard. -/
structure Orphan (s : Tables) (p : PositionRow) : Prop where
  mem : p ∈ loadPositions s
  sound : Sound s p
  fresh : ∀ r ∈ s.signals, r.signalId ≠ orphanId p

/-- The trade of an orphan. -/
def TradeOf (p : PositionRow) (t : TradeRow) : Prop :=
  t.tradeId = p.positionId ∧ t.positionId = p.positionId ∧ t.qty = p.qty

/-- After some messages these orphans are closed, and nothing else has happened. -/
structure CleanedUp (s₀ s : Tables) (done : List PositionRow) : Prop where
  orphans : ∀ p ∈ done, p ∈ loadPositions s₀
  nodup : (done.map PositionRow.positionId).Nodup
  positions : s.positions.rows =
    s₀.positions.rows.filter fun p => p.positionId ∉ done.map PositionRow.positionId
  trades : ∃ closed, s.trades.rows = s₀.trades.rows ++ closed ∧
    closed.map TradeRow.tradeId = done.map PositionRow.positionId ∧ ∀ t ∈ closed, ∃ p ∈ done, TradeOf p t
  heard : ∀ p ∈ done, ∃ r ∈ s.signals, r.signalId = orphanId p ∧ r.processed = true
  logged : ∀ r ∈ s.signals, r ∈ s₀.signals ∨ ∃ p ∈ done, r.signalId = orphanId p

section Run

variable (self : Executor) {s₀ s : Tables} {done : List PositionRow} {p : PositionRow} {m : Delivery}

lemma orphanId_inj {p q : PositionRow} : orphanId p = orphanId q ↔ p.positionId = q.positionId :=
  String.append_right_inj _

lemma mem_loadPositions : p ∈ loadPositions s₀ ↔ p ∈ s₀.positions.rows ∧ isInactive s₀ p.alphaId = true := by
  rw [loadPositions, (List.perm_insertionSort _ _).mem_iff, List.mem_filter]

lemma signalIdOr_of_closes {data : RawSignal} (h : Closes p data) : data.signalIdOr = orphanId p := by
  obtain ⟨mark, now, uuid, -, -, rfl⟩ := h
  rfl

/-- The message reads as a CLOSE of the whole orphan. -/
lemma fullClose {data : RawSignal} (h : Closes p data) (hfresh : ∀ r ∈ s.signals, r.signalId ≠ orphanId p) :
    ∃ signal, FullClose s p data signal := by
  have hid := signalIdOr_of_closes h
  obtain ⟨mark, now, uuid, hmark, htime, rfl⟩ := h
  exact ⟨_, rfl, rfl, rfl, ⟨mark, rfl, hmark⟩, htime, fun r hr => hid ▸ hfresh r hr⟩

/-- A second message for an orphan is a duplicate. -/
lemma CleanedUp.duplicate (h : CleanedUp s₀ s done) {q : PositionRow} (hq : q ∈ done)
    (hid : q.positionId = p.positionId) (hm : Closes p m.data) : Duplicate s m.data := by
  obtain ⟨r, hr, hsignal, hprocessed⟩ := h.heard q hq
  rw [Duplicate, signalIdOr_of_closes hm]
  constructor
  · intro hunknown
    have hlength := congrArg (fun t => t.toList.take 7) hunknown
    simp [orphanId] at hlength
  · refine List.any_eq_true.mpr ⟨r, hr, ?_⟩
    rw [hsignal, hprocessed, orphanId_inj.mpr hid]
    simp

/-- The first message for an orphan closes it. -/
lemma CleanedUp.close (h : CleanedUp s₀ s done) (hp : Orphan s₀ p)
    (hnew : p.positionId ∉ done.map PositionRow.positionId) (hm : Closes p m.data) :
    CleanedUp s₀ (deliver self s m) (done ++ [p]) := by
  obtain ⟨closed, htrades, hids, hof⟩ := h.trades
  have hother : ∀ q ∈ done, q.positionId ≠ p.positionId := fun q hq heq =>
    hnew (heq ▸ List.mem_map_of_mem hq)
  have hmem : p ∈ s.positions.rows := by
    rw [h.positions, List.mem_filter]
    exact ⟨(mem_loadPositions.mp hp.mem).1, by simpa using hnew⟩
  have huntraded : s.trades.contains p.positionId = false := by
    rw [Table.not_contains_iff, htrades]
    intro t ht
    rcases List.mem_append.mp ht with ht | ht
    · exact (s₀.trades.not_contains_iff _).mp hp.sound.untraded t ht
    · obtain ⟨q, hq, htid, -⟩ := hof t ht
      rw [htid]
      exact hother q hq
  have hsound : Sound s p := ⟨hp.sound.qty, hp.sound.entryPrice, hp.sound.opened, huntraded⟩
  have hfresh : ∀ r ∈ s.signals, r.signalId ≠ orphanId p := by
    intro r hr
    rcases h.logged r hr with hr | ⟨q, hq, hid⟩
    · exact hp.fresh r hr
    · rw [hid, Ne, orphanId_inj]
      exact hother q hq
  obtain ⟨signal, hfull⟩ := fullClose hm hfresh
  obtain ⟨-, hclosed⟩ : Accepted self s m ∧ Closed s (deliver self s m) p m :=
    close_sound hmem hsound hfull
  have hprice : ∃ x, Executor.closeRefPrice signal p = some x := by
    obtain ⟨x, hx, hx0⟩ := hfull.exitPrice
    exact ⟨.fin x, by simp [Executor.closeRefPrice, hx, hx0.ne']⟩
  obtain ⟨trade, htrade, hposition, hqty⟩ := hclosed.trade
  have hwhole : WholeClosed s (deliver self s m) p m.data := deliver_wholeClose hmem hsound
    ⟨hfull.parse, hfull.positionId, hfull.qty, hprice, hfull.timestamp, hfull.fresh⟩
  obtain ⟨trade', htid, htrade'⟩ := hwhole.trades
  obtain rfl : trade = trade' := by simpa using htrade.symm.trans htrade'
  have hrow : (logRow m.env m.data).signalId = orphanId p := signalIdOr_of_closes hm
  exact {
    orphans := by
      intro q hq
      rcases List.mem_append.mp hq with hq | hq
      · exact h.orphans q hq
      · exact List.mem_singleton.mp hq ▸ hp.mem
    nodup := by
      rw [List.map_append, List.nodup_append]
      refine ⟨h.nodup, List.nodup_singleton _, ?_⟩
      rintro id hid id' hid' rfl
      exact hnew (List.mem_singleton.mp hid' ▸ hid)
    positions := by
      show (deliver self s m).positions.rows = _
      rw [hclosed.positions, Table.erase, Table.rows_filter, h.positions, List.filter_filter]
      apply List.filter_congr
      intro q _
      rw [Bool.eq_iff_iff]
      simpa using and_comm
    trades := by
      refine ⟨closed ++ [trade], by rw [htrade, htrades, List.append_assoc], by simp [hids, htid], ?_⟩
      intro t ht
      rcases List.mem_append.mp ht with ht | ht
      · obtain ⟨q, hq, hof⟩ := hof t ht
        exact ⟨q, List.mem_append_left _ hq, hof⟩
      · obtain rfl := List.mem_singleton.mp ht
        exact ⟨p, List.mem_append_right _ (List.mem_singleton_self p), htid, hposition, hqty⟩
    heard := by
      intro q hq
      rw [hclosed.signals]
      rcases List.mem_append.mp hq with hq | hq
      · obtain ⟨r, hr, hheard⟩ := h.heard q hq
        exact ⟨r, List.mem_append_left _ hr, hheard⟩
      · obtain rfl := List.mem_singleton.mp hq
        exact ⟨_, List.mem_append_right _ (List.mem_singleton_self _), hrow, rfl⟩
    logged := by
      intro r hr
      rw [hclosed.signals] at hr
      rcases List.mem_append.mp hr with hr | hr
      · rcases h.logged r hr with hr | ⟨q, hq, hid⟩
        · exact .inl hr
        · exact .inr ⟨q, List.mem_append_left _ hq, hid⟩
      · rw [List.mem_singleton.mp hr]
        exact .inr ⟨p, List.mem_append_right _ (List.mem_singleton_self p), hrow⟩ }

/-- One message. -/
lemma CleanedUp.step (h : CleanedUp s₀ s done) (hp : Orphan s₀ p) (hm : Closes p m.data) :
    ∃ done', CleanedUp s₀ (deliver self s m) done' ∧
      ∀ id, id ∈ done'.map PositionRow.positionId ↔
        id = p.positionId ∨ id ∈ done.map PositionRow.positionId := by
  by_cases hdone : p.positionId ∈ done.map PositionRow.positionId
  · obtain ⟨q, hq, hid⟩ := List.mem_map.mp hdone
    have hsame : deliver self s m = s := deliver_of_duplicate (h.duplicate hq hid hm)
    exact ⟨done, hsame.symm ▸ h, fun id => ⟨.inr, by rintro (rfl | hmem) <;> assumption⟩⟩
  · exact ⟨done ++ [p], h.close self hp hdone hm, by simp [or_comm]⟩

/-- Any messages. -/
lemma CleanedUp.run (h : CleanedUp s₀ s done) {ms : List Delivery}
    (hms : ∀ m ∈ ms, ∃ p, Orphan s₀ p ∧ Closes p m.data) :
    ∃ done', CleanedUp s₀ (deliverAll self s ms) done' ∧
      ∀ id, id ∈ done'.map PositionRow.positionId ↔
        (∃ m ∈ ms, m.data.positionId = some id) ∨ id ∈ done.map PositionRow.positionId := by
  induction ms generalizing s done with
  | nil => exact ⟨done, h, by simp⟩
  | cons m ms ih =>
    obtain ⟨p, hp, hm⟩ := hms m (List.mem_cons_self ..)
    obtain ⟨done₁, hfirst, hids₁⟩ := h.step self hp hm
    obtain ⟨done', hrest, hids'⟩ := ih hfirst fun m hmem => hms m (List.mem_cons_of_mem _ hmem)
    refine ⟨done', hrest, fun id => ?_⟩
    have hposition : m.data.positionId = some id ↔ id = p.positionId := by
      obtain ⟨mark, now, uuid, -, -, hdata⟩ := hm
      rw [hdata, buildSignal, Option.some.injEq, eq_comm]
    rw [hids', hids₁, List.exists_mem_cons_iff, hposition, or_left_comm, or_assoc]

/-- When every orphan has been closed, the other positions are left, and each orphan has one trade. -/
lemma CleanedUp.all (h : CleanedUp s₀ s done)
    (hall : ∀ p ∈ loadPositions s₀, p.positionId ∈ done.map PositionRow.positionId) :
    s.positions.rows = s₀.positions.rows.filter (fun p => !isInactive s₀ p.alphaId) ∧
      ∃ closed, s.trades.rows = s₀.trades.rows ++ closed ∧
        (closed.map TradeRow.tradeId).Perm ((loadPositions s₀).map PositionRow.positionId) ∧
        ∀ t ∈ closed, ∃ p ∈ loadPositions s₀, TradeOf p t := by
  obtain ⟨closed, htrades, hids, hof⟩ := h.trades
  constructor
  · rw [h.positions]
    apply List.filter_congr
    intro p hp
    have hdone : p.positionId ∈ done.map PositionRow.positionId ↔ isInactive s₀ p.alphaId = true := by
      constructor
      · intro hmem
        obtain ⟨q, hq, hid⟩ := List.mem_map.mp hmem
        obtain ⟨hrow, hinactive⟩ := mem_loadPositions.mp (h.orphans q hq)
        exact s₀.positions.eq_of_key_eq hrow hp hid ▸ hinactive
      · exact fun hinactive => hall p (mem_loadPositions.mpr ⟨hp, hinactive⟩)
    rw [Bool.eq_iff_iff, decide_eq_true_eq, hdone]
    simp
  · refine ⟨closed, htrades, ?_, fun t ht => ?_⟩
    · have hnodup : ((loadPositions s₀).map PositionRow.positionId).Nodup := by
        have hperm : (loadPositions s₀).Perm (s₀.positions.rows.filter fun p => isInactive s₀ p.alphaId) :=
          List.perm_insertionSort _ _
        refine (hperm.map _).nodup_iff.mpr ?_
        exact s₀.positions.nodup_keys.sublist (List.filter_sublist.map _)
      rw [hids, List.perm_ext_iff_of_nodup h.nodup hnodup]
      intro id
      constructor
      · intro hid
        obtain ⟨p, hp, rfl⟩ := List.mem_map.mp hid
        exact List.mem_map_of_mem (h.orphans p hp)
      · intro hid
        obtain ⟨p, hp, rfl⟩ := List.mem_map.mp hid
        exact hall p hp
    · obtain ⟨p, hp, htrade⟩ := hof t ht
      exact ⟨p, h.orphans p hp, htrade⟩

end Run

/-- A position of an alpha. -/
def positionOf (positionId alphaId : String) : PositionRow where
  positionId
  alphaId
  signalId := "open-" ++ positionId
  symbol := "BTCUSDT"
  side := "LONG"
  entryPrice := some (.fin 100)
  qty := some (.fin 2)
  tp := none
  sl := none
  leverage := 1
  openedAt := "2024-01-01T00:00:00+00:00"
  metadata := .chars ""
  exchange := "binance"
  feePct := none

end PaperTrade.Worker.OrphanCleanup
