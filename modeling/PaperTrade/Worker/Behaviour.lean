import PaperTrade.Worker.Main

/-!
# What the operations do

Each operation of `Database` and `Executor`, run inside a transaction, has one of finitely many
outcomes. They are listed here once, as the constructors of an inductive relation with the guards
under which each one happens; every later result takes the cases of these relations and does not
unfold an operation again. `deliver_cases` is the list for a whole message.
-/

namespace PaperTrade.Worker

open PaperTrade.Runtime

/-! ## Single statements -/

@[simp] theorem run_execute (c s : Tables) (stmt : Tables → Except PyError Tables) :
    (execute stmt).run (.within c s) = match stmt s with
      | .ok s' => (.ok (), .within c s')
      | .error e => (.error e, .within c s) := by
  cases h : stmt s with
  | ok s' => exact run_execute_ok c s h
  | error e => exact run_execute_error c s h

/-- `register_alpha` on the tables. -/
def Tables.withAlpha (s : Tables) (now alphaId : String) : Tables :=
  { s with alphas := s.alphas.insertOrIgnore ⟨alphaId, alphaId, now, "active"⟩ }

@[simp] theorem openPosition?_withAlpha (s : Tables) (now alphaId a symbol : String) :
    openPosition? (s.withAlpha now alphaId) a symbol = openPosition? s a symbol := rfl

@[simp] theorem run_registerAlpha (c s : Tables) (now alphaId : String) :
    (registerAlpha now alphaId).run (.within c s) = (.ok (), .within c (s.withAlpha now alphaId)) := by
  simp [registerAlpha, Coro.run_bind, Tables.withAlpha]

@[simp] theorem run_logSignal (c s : Tables) (now signalId alphaId type : String)
    (payload : RawSignal) :
    (logSignal now signalId alphaId type payload).run (.within c s) =
      (.ok (), .within c (s.log ⟨signalId, alphaId, type, payload, now, false, none⟩)) := by
  simp [logSignal, Coro.run_bind]

@[simp] theorem run_markSignalProcessed (c s : Tables) (signalId : String)
    (error : Option PyError) :
    (markSignalProcessed signalId error).run (.within c s) =
      (.ok (), .within c (s.mark signalId error)) := by
  simp [markSignalProcessed, Coro.run_bind]

@[simp] theorem run_getPosition (conn : Conn) (positionId : String) :
    (getPosition positionId).run conn = (.ok (conn.current.positions.find? positionId), conn) := rfl

/-! ## `close_position` -/

/-- `UPDATE positions SET qty = ?, metadata = ? WHERE position_id = ?`. -/
def Tables.reduce (s : Tables) (positionId : String) (qty : PyFloat) (metadata : Text) : Tables :=
  { s with
    positions := s.positions.modify positionId (·.reduced qty metadata)
      (PositionRow.positionId_reduced qty metadata) }

lemma mem_reduce {s : Tables} {positionId : String} {qty : PyFloat} {metadata : Text}
    {p : PositionRow} : p ∈ (s.reduce positionId qty metadata).positions.rows ↔
      (p ∈ s.positions.rows ∧ p.positionId ≠ positionId) ∨
        ∃ r ∈ s.positions.rows, r.positionId = positionId ∧ p = r.reduced qty metadata :=
  Table.mem_modify s.positions positionId (·.reduced qty metadata)
    (PositionRow.positionId_reduced qty metadata) p

/-- The arguments of `close_position`. -/
structure CloseArgs where
  uuid : String
  positionId : String
  exitPrice : Option PyFloat
  reason : String
  closedAt : String
  closeMetadata : Text
  qty : Option PyFloat

/-- `close_position` finds `pos`, closes `q` of its quantity `o` and has the row `trade` ready. -/
structure Settles (s : Tables) (a : CloseArgs) (pos : PositionRow) (q o : PyFloat)
    (trade : TradeRow) : Prop where
  found : s.positions.find? a.positionId = some pos
  quantity : closeQuantity pos a.qty = .ok q
  positive : ¬ q ≤ 0
  openQty : pos.qty = some o
  row : closingTrade pos a.exitPrice q a.reason a.closedAt a.closeMetadata
    (if (o - q).max 0 ≤ dust then pos.positionId else a.uuid) = .ok trade

/-- What `close_position` does inside a transaction. -/
inductive ClosePosition (s : Tables) (a : CloseArgs) : Except PyError Unit → Tables → Prop
  | missing (hfind : s.positions.find? a.positionId = none) : ClosePosition s a (.ok ()) s
  | unpriced {pos e} (hfind : s.positions.find? a.positionId = some pos)
      (hq : closeQuantity pos a.qty = .error e) : ClosePosition s a (.error e) s
  | nothing {pos q} (hfind : s.positions.find? a.positionId = some pos)
      (hq : closeQuantity pos a.qty = .ok q) (hle : q ≤ 0) : ClosePosition s a (.ok ()) s
  | unsettled {pos q o e} (hfind : s.positions.find? a.positionId = some pos)
      (hq : closeQuantity pos a.qty = .ok q) (hpos : ¬ q ≤ 0) (ho : pos.qty = some o)
      (hrow : closingTrade pos a.exitPrice q a.reason a.closedAt a.closeMetadata
        (if (o - q).max 0 ≤ dust then pos.positionId else a.uuid) = .error e) :
      ClosePosition s a (.error e) s
  | taken {pos q o trade} (h : Settles s a pos q o trade)
      (htaken : s.trades.contains trade.tradeId = true) :
      ClosePosition s a (.error (.uniqueFailed "trades.trade_id")) s
  | full {pos q o trade} (h : Settles s a pos q o trade) (hdust : (o - q).max 0 ≤ dust) {trades}
      (hnew : s.trades.contains trade.tradeId = false)
      (htrades : trades.rows = s.trades.rows ++ [trade]) :
      ClosePosition s a (.ok ())
        { s with trades := trades, positions := s.positions.erase a.positionId }
  | stuck {pos q o trade e} (h : Settles s a pos q o trade) (hdust : ¬ (o - q).max 0 ≤ dust) {trades}
      (hnew : s.trades.contains trade.tradeId = false)
      (htrades : trades.rows = s.trades.rows ++ [trade])
      (hmerge : mergePositionRuntimeMetadata pos.metadata a.closeMetadata = .error e) :
      ClosePosition s a (.error e) { s with trades := trades }
  | partly {pos q o trade merged} (h : Settles s a pos q o trade)
      (hdust : ¬ (o - q).max 0 ≤ dust) {trades}
      (hnew : s.trades.contains trade.tradeId = false)
      (htrades : trades.rows = s.trades.rows ++ [trade])
      (hmerge : mergePositionRuntimeMetadata pos.metadata a.closeMetadata = .ok merged) :
      ClosePosition s a (.ok ())
        (({ s with trades := trades } : Tables).reduce a.positionId ((o - q).max 0) merged)

lemma Settles.unique {s : Tables} {a : CloseArgs} {pos pos' : PositionRow} {q q' o o' : PyFloat}
    {t t' : TradeRow} (h : Settles s a pos q o t) (h' : Settles s a pos' q' o' t') :
    pos' = pos ∧ q' = q ∧ o' = o ∧ t' = t := by
  obtain ⟨hf, hq, -, ho, hrow⟩ := h
  obtain ⟨hf', hq', -, ho', hrow'⟩ := h'
  rw [hf] at hf'
  cases hf'
  rw [hq] at hq'
  cases hq'
  rw [ho] at ho'
  cases ho'
  rw [hrow] at hrow'
  cases hrow'
  exact ⟨rfl, rfl, rfl, rfl⟩

/-- Once a close is settled, the id, the dust and the merge decide it. -/
lemma ClosePosition.of_settles {s s' : Tables} {a : CloseArgs} {r : Except PyError Unit}
    {pos : PositionRow} {q o : PyFloat} {trade : TradeRow} (h : ClosePosition s a r s')
    (hset : Settles s a pos q o trade) :
    (s.trades.contains trade.tradeId = true ∧ s' = s) ∨
      (s.trades.contains trade.tradeId = false ∧ ∃ trades : Table TradeRow.tradeId,
        trades.rows = s.trades.rows ++ [trade] ∧
        ((o - q).max 0 ≤ dust → r = .ok () ∧
          s' = { s with trades := trades, positions := s.positions.erase a.positionId }) ∧
        ∀ e, ¬ (o - q).max 0 ≤ dust →
          mergePositionRuntimeMetadata pos.metadata a.closeMetadata = .error e →
          s' = { s with trades := trades }) := by
  cases h with
  | missing hf =>
    rw [hset.found] at hf
    cases hf
  | unpriced hf hq =>
    rw [hset.found] at hf
    cases hf
    rw [hset.quantity] at hq
    cases hq
  | nothing hf hq hle =>
    rw [hset.found] at hf
    cases hf
    rw [hset.quantity] at hq
    cases hq
    exact absurd hle hset.positive
  | unsettled hf hq _ ho hrow =>
    rw [hset.found] at hf
    cases hf
    rw [hset.quantity] at hq
    cases hq
    rw [hset.openQty] at ho
    cases ho
    rw [hset.row] at hrow
    cases hrow
  | taken hset' htaken =>
    obtain ⟨rfl, rfl, rfl, rfl⟩ := hset.unique hset'
    exact .inl ⟨htaken, rfl⟩
  | @full _ _ _ _ hset' hdust trades hnew htrades =>
    obtain ⟨rfl, rfl, rfl, rfl⟩ := hset.unique hset'
    exact .inr ⟨hnew, trades, htrades, fun _ => ⟨rfl, rfl⟩, fun _ h => absurd hdust h⟩
  | @stuck _ _ _ _ _ hset' hpartly trades hnew htrades =>
    obtain ⟨rfl, rfl, rfl, rfl⟩ := hset.unique hset'
    exact .inr ⟨hnew, trades, htrades, fun h => absurd h hpartly, fun _ _ _ => rfl⟩
  | @partly _ _ _ _ _ hset' hpartly trades hnew htrades hmerge =>
    obtain ⟨rfl, rfl, rfl, rfl⟩ := hset.unique hset'
    refine .inr ⟨hnew, trades, htrades, fun h => absurd h hpartly, fun e _ h => ?_⟩
    rw [hmerge] at h
    cases h

/-- A quantity to close exists only where the row has a quantity. -/
lemma qty_of_closeQuantity {pos : PositionRow} {qty : Option PyFloat} {q : PyFloat}
    (h : closeQuantity pos qty = .ok q) : ∃ o, pos.qty = some o := by
  cases ho : pos.qty with
  | some o => exact ⟨o, rfl⟩
  | none => cases qty <;> simp [closeQuantity, need, ho, Except.map] at h

theorem closePosition_run (c s : Tables) (a : CloseArgs) :
    ∃ r s', (closePosition a.uuid a.positionId a.exitPrice a.reason a.closedAt a.closeMetadata
        a.qty).run (.within c s) = (r, .within c s') ∧ ClosePosition s a r s' := by
  simp only [closePosition, Coro.run_bind, run_getPosition, Conn.current_within]
  cases hfind : s.positions.find? a.positionId with
  | none => exact ⟨_, _, rfl, .missing hfind⟩
  | some pos =>
  simp only [Coro.run_bind, Coro.run_ofExcept]
  cases hq : closeQuantity pos a.qty with
  | error e => exact ⟨_, _, rfl, .unpriced hfind hq⟩
  | ok q =>
  by_cases hpos : q ≤ 0
  · simp only [if_pos hpos]
    exact ⟨_, _, rfl, .nothing hfind hq hpos⟩
  obtain ⟨o, ho⟩ := qty_of_closeQuantity hq
  simp only [Coro.run_bind, Coro.run_ofExcept, if_neg hpos, ho, need]
  cases hrow : closingTrade pos a.exitPrice q a.reason a.closedAt a.closeMetadata
      (if (o - q).max 0 ≤ dust then pos.positionId else a.uuid) with
  | error e => exact ⟨_, _, rfl, .unsettled hfind hq hpos ho hrow⟩
  | ok trade =>
  simp only [run_execute]
  have hsettles : Settles s a pos q o trade := ⟨hfind, hq, hpos, ho, hrow⟩
  cases hnew : s.trades.contains trade.tradeId with
  | true =>
    refine ⟨.error (.uniqueFailed "trades.trade_id"), s, ?_, .taken hsettles hnew⟩
    simp only [insertUnique_of_contains hnew, Except.map]
  | false =>
  obtain ⟨trades, hins, htrades⟩ :=
    exists_insertUnique "trades.trade_id" s.trades trade hnew
  simp only [hins, Except.map]
  by_cases hdust : (o - q).max 0 ≤ dust
  · refine ⟨_, _, ?_, .full hsettles hdust hnew htrades⟩
    simp only [if_pos hdust, Coro.run_bind, run_execute, run_commit]
  · simp only [if_neg hdust, Coro.run_bind, Coro.run_ofExcept]
    cases hmerge : mergePositionRuntimeMetadata pos.metadata a.closeMetadata with
    | error e =>
      exact ⟨_, _, rfl, .stuck hsettles hdust hnew htrades hmerge⟩
    | ok merged =>
      refine ⟨_, _, ?_, .partly hsettles hdust hnew htrades hmerge⟩
      simp only [run_execute, run_commit, Tables.reduce]

/-! ## OPEN -/

/-- `process_open` finds a position in the way. -/
def Blocks (self : Executor) (s : Tables) (signal : OpenSignal) : Prop :=
  (openPosition? s signal.alphaId signal.symbol).isSome = true ∧ self.duplicatePolicy = "reject" ∧
    ¬ Executor.allowsDuplicatePosition signal = true

instance (self : Executor) (s : Tables) (signal : OpenSignal) : Decidable (Blocks self s signal) :=
  inferInstanceAs (Decidable (_ ∧ _ ∧ _))

section Open

variable (self : Executor) (env : Env) (s : Tables) (signal : OpenSignal) (fill : Option FillPrice)

/-- What `process_open` does inside a transaction. The alpha is registered in every case. -/
inductive ProcessOpen : Except PyError Outcome → Tables → Prop
  | blocked (hblocks : Blocks self s signal) :
      ProcessOpen (.error (.duplicatePosition signal.alphaId signal.symbol))
        (s.withAlpha env.now signal.alphaId)
  | leverage (hblocks : ¬ Blocks self s signal) (hfits : fitsInt64 signal.leverage = false) :
      ProcessOpen (.error .intTooLarge) (s.withAlpha env.now signal.alphaId)
  | taken (hblocks : ¬ Blocks self s signal) (hfits : fitsInt64 signal.leverage = true)
      (htaken : s.positions.contains (self.openRow env signal fill).positionId = true) :
      ProcessOpen (.error (.uniqueFailed "positions.position_id"))
        (s.withAlpha env.now signal.alphaId)
  | opened (hblocks : ¬ Blocks self s signal) (hfits : fitsInt64 signal.leverage = true) {positions}
      (hnew : s.positions.contains (self.openRow env signal fill).positionId = false)
      (hrows : positions.rows = s.positions.rows ++ [self.openRow env signal fill]) :
      ProcessOpen (.ok (.opened (self.openRow env signal fill).positionId
          (self.openFill signal fill).value))
        { s.withAlpha env.now signal.alphaId with positions := positions }

theorem processOpen_run (c : Tables) :
    ∃ r s', (self.processOpen env signal fill).run (.within c s) = (r, .within c s') ∧
      ProcessOpen self env s signal fill r s' := by
  simp only [Executor.processOpen, Coro.run_bind, run_registerAlpha, getOpenPositionByAlphaSymbol,
    run_query, Conn.current_within, openPosition?_withAlpha]
  by_cases hblocks : Blocks self s signal
  · simp only [if_pos (show _ ∧ _ ∧ _ from hblocks)]
    exact ⟨_, _, rfl, .blocked hblocks⟩
  simp only [if_neg (show ¬ (_ ∧ _ ∧ _) from hblocks), createPosition, Coro.run_bind, run_execute]
  cases hfits : fitsInt64 signal.leverage with
  | false =>
    refine ⟨_, _, ?_, .leverage hblocks hfits⟩
    simp only [Executor.openRow, hfits]
    rfl
  | true =>
  have hrow : fitsInt64 (self.openRow env signal fill).leverage = true := hfits
  simp only [if_pos hrow]
  cases hnew : s.positions.contains (self.openRow env signal fill).positionId with
  | true =>
    refine ⟨_, _, ?_, .taken hblocks hfits hnew⟩
    simp only [Tables.withAlpha, insertUnique_of_contains hnew, Except.map]
  | false =>
    obtain ⟨positions, hins, hrows⟩ :=
      exists_insertUnique "positions.position_id" s.positions _ hnew
    refine ⟨_, _, ?_, .opened hblocks hfits hnew hrows⟩
    simp only [Tables.withAlpha, hins, Except.map, run_commit, Coro.run_pure]

end Open

/-! ## MODIFY -/

/-- The metadata `modify_position` stores: `none` when the signal carries none. -/
def mergedMetadata (pos : PositionRow) (metadata : Text) : Except PyError (Option Text) :=
  if metadata.isBlankObject then .ok none
  else (mergePositionRuntimeMetadata pos.metadata metadata).map some

section Modify

variable (s : Tables) (signal : ModifySignal)

/-- The tables after an update of the TP, the SL and the metadata of the position. -/
def Tables.modified (merged : Option Text) : Tables :=
  { s with
    positions := s.positions.modify signal.positionId (·.updated signal.tp signal.sl merged)
      (PositionRow.positionId_updated signal.tp signal.sl merged) }

lemma mem_modified {merged : Option Text} {p : PositionRow} :
    p ∈ (s.modified signal merged).positions.rows ↔
      (p ∈ s.positions.rows ∧ p.positionId ≠ signal.positionId) ∨
        ∃ r ∈ s.positions.rows, r.positionId = signal.positionId ∧
          p = r.updated signal.tp signal.sl merged :=
  Table.mem_modify s.positions signal.positionId (·.updated signal.tp signal.sl merged)
    (PositionRow.positionId_updated signal.tp signal.sl merged) p

/-- What `process_modify` does inside a transaction. -/
inductive ProcessModify : Except PyError Outcome → Tables → Prop
  | missing (hfind : s.positions.find? signal.positionId = none) :
      ProcessModify (.error (.positionNotFound signal.positionId)) s
  | stop {pos e} (hfind : s.positions.find? signal.positionId = some pos)
      (hstop : Executor.checkStop pos signal.sl = .error e) : ProcessModify (.error e) s
  | unmerged {pos e} (hfind : s.positions.find? signal.positionId = some pos)
      (hstop : Executor.checkStop pos signal.sl = .ok ())
      (hmerge : mergedMetadata pos signal.metadata = .error e) : ProcessModify (.error e) s
  | modified {pos merged} (hfind : s.positions.find? signal.positionId = some pos)
      (hstop : Executor.checkStop pos signal.sl = .ok ())
      (hmerge : mergedMetadata pos signal.metadata = .ok merged) :
      ProcessModify (.ok (.modified signal.positionId)) (s.modified signal merged)

/-- An update of no column changes nothing. -/
lemma modified_none (htp : signal.tp = none) (hsl : signal.sl = none) :
    s.modified signal none = s := by
  have hrows : s.positions.modify signal.positionId (·.updated signal.tp signal.sl none)
      (PositionRow.positionId_updated signal.tp signal.sl none) = s.positions := by
    ext1
    simp [Table.modify, htp, hsl, PositionRow.updated]
  simp [Tables.modified, hrows]

theorem modifyPosition_run (c : Tables) {pos : PositionRow}
    (hfind : s.positions.find? signal.positionId = some pos) :
    (modifyPosition signal.positionId signal.tp signal.sl signal.metadata).run (.within c s) =
      match mergedMetadata pos signal.metadata with
      | .ok merged => (.ok (), .within c (s.modified signal merged))
      | .error e => (.error e, .within c s) := by
  have hwrite : ∀ merged : Option Text,
      (if signal.tp.isNone && signal.sl.isNone && merged.isNone then (pure () : Db Unit) else do
        execute fun t => .ok { t with
          positions := t.positions.modify signal.positionId (·.updated signal.tp signal.sl merged)
            (PositionRow.positionId_updated signal.tp signal.sl merged) }
        commit).run (.within c s) = (.ok (), .within c (s.modified signal merged)) := by
    intro merged
    split
    · rename_i h
      simp only [Bool.and_eq_true, Option.isNone_iff_eq_none] at h
      rw [h.2, modified_none s signal h.1.1 h.1.2]
      rfl
    · simp only [Coro.run_bind, run_execute, run_commit, Tables.modified]
  simp only [modifyPosition, mergedMetadata]
  split
  · exact hwrite none
  · simp only [Coro.run_bind, run_getPosition, Conn.current_within, hfind, Option.map_some,
      Option.getD_some, Coro.run_ofExcept]
    cases hm : mergePositionRuntimeMetadata pos.metadata signal.metadata with
    | error e => rfl
    | ok m => exact hwrite (some m)

theorem processModify_run (c : Tables) :
    ∃ r s', (Executor.processModify signal).run (.within c s) = (r, .within c s') ∧
      ProcessModify s signal r s' := by
  simp only [Executor.processModify, Coro.run_bind, run_getPosition, Conn.current_within]
  cases hfind : s.positions.find? signal.positionId with
  | none => exact ⟨_, _, rfl, .missing hfind⟩
  | some pos =>
  simp only [Coro.run_bind, Coro.run_ofExcept]
  cases hstop : Executor.checkStop pos signal.sl with
  | error e => exact ⟨_, _, rfl, .stop hfind hstop⟩
  | ok _ =>
  simp only [modifyPosition_run s signal c hfind]
  cases hmerge : mergedMetadata pos signal.metadata with
  | error e => exact ⟨_, _, rfl, .unmerged hfind hstop hmerge⟩
  | ok merged => exact ⟨_, _, rfl, .modified hfind hstop hmerge⟩

end Modify

/-! ## CLOSE -/

section Close

variable (self : Executor) (env : Env) (s : Tables) (signal : CloseSignal) (fill : Option FillPrice)

/-- The arguments `process_close` hands to `close_position`. -/
def closeArgs (pos : PositionRow) (exitPrice : Option PyFloat) (execution : Entries)
    (closeQty : PyFloat) : CloseArgs where
  uuid := env.uuid
  positionId := signal.positionId
  exitPrice := exitPrice
  reason := signal.reason
  closedAt := signal.timestamp
  closeMetadata := Executor.closeMetadata signal pos exitPrice execution
  qty := some closeQty

/-- What `process_close` does inside a transaction. -/
inductive ProcessClose : Except PyError Outcome → Tables → Prop
  | missing (hfind : s.positions.find? signal.positionId = none) :
      ProcessClose (.error (.positionNotFound signal.positionId)) s
  | refused {pos e} (hfind : s.positions.find? signal.positionId = some pos)
      (hqty : Executor.checkCloseQty signal pos = .error e) : ProcessClose (.error e) s
  | unfilled {pos q e} (hfind : s.positions.find? signal.positionId = some pos)
      (hqty : Executor.checkCloseQty signal pos = .ok q)
      (hfill : self.closeFill signal pos fill = .error e) : ProcessClose (.error e) s
  | failed {pos q exit execution e s'} (hfind : s.positions.find? signal.positionId = some pos)
      (hqty : Executor.checkCloseQty signal pos = .ok q)
      (hfill : self.closeFill signal pos fill = .ok (exit, execution))
      (hclose : ClosePosition s (closeArgs env signal pos exit execution q) (.error e) s') :
      ProcessClose (.error e) s'
  | closed {pos q o exit execution s'} (hfind : s.positions.find? signal.positionId = some pos)
      (hqty : Executor.checkCloseQty signal pos = .ok q) (ho : pos.qty = some o)
      (hfill : self.closeFill signal pos fill = .ok (exit, execution))
      (hclose : ClosePosition s (closeArgs env signal pos exit execution q) (.ok ()) s') :
      ProcessClose (.ok (.closed signal.positionId exit ((o - q).max 0 ≤ dust) q ((o - q).max 0))) s'

/-- The quantity that `process_close` accepts is the one of the signal or of the row. -/
lemma checkCloseQty_ok {pos : PositionRow} {q : PyFloat}
    (h : Executor.checkCloseQty signal pos = .ok q) :
    signal.qty.or pos.qty = some q ∧ ¬ q ≤ 0 ∧
      ∃ o, pos.qty = some o ∧ ¬ o + dust < q := by
  simp only [Executor.checkCloseQty, need, bind, Except.bind, pure, Except.pure, throw,
    throwThe, MonadExceptOf.throw] at h
  cases hq : signal.qty.or pos.qty with
  | none => simp [hq] at h
  | some q' =>
  simp only [hq] at h
  split at h
  · cases h
  rename_i hle
  cases ho : pos.qty with
  | none => simp [ho] at h
  | some o =>
  simp only [ho] at h
  split at h
  · cases h
  rename_i hlt
  cases h
  exact ⟨rfl, hle, o, rfl, hlt⟩

theorem processClose_run (c : Tables) :
    ∃ r s', (self.processClose env signal fill).run (.within c s) = (r, .within c s') ∧
      ProcessClose self env s signal fill r s' := by
  simp only [Executor.processClose, Coro.run_bind, run_getPosition, Conn.current_within]
  cases hfind : s.positions.find? signal.positionId with
  | none => exact ⟨_, _, rfl, .missing hfind⟩
  | some pos =>
  simp only [Coro.run_bind, Coro.run_ofExcept]
  cases hqty : Executor.checkCloseQty signal pos with
  | error e => exact ⟨_, _, rfl, .refused hfind hqty⟩
  | ok q =>
  cases hfill : self.closeFill signal pos fill with
  | error e => exact ⟨_, _, rfl, .unfilled hfind hqty hfill⟩
  | ok p =>
  obtain ⟨exit, execution⟩ := p
  obtain ⟨r, s', hrun, hclose⟩ :=
    closePosition_run c s (closeArgs env signal pos exit execution q)
  simp only [closeArgs] at hrun
  simp only [hrun]
  cases r with
  | error e => exact ⟨_, _, rfl, .failed hfind hqty hfill hclose⟩
  | ok _ =>
    obtain ⟨o, ho, -⟩ := (checkCloseQty_ok signal hqty).2.2
    simp only [ho, need]
    exact ⟨_, _, rfl, .closed hfind hqty ho hfill hclose⟩

end Close

end PaperTrade.Worker
