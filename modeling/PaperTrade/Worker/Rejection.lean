import PaperTrade.Worker.Closable

/-!
# What a rejected signal leaves behind

An error of a handler is caught inside the transaction, which then commits, so whatever was written
before the error stays. `verdict` is the error of a handler as a function of the tables it finds;
`Harmless` says when nothing was written before it. MODIFY never writes first; OPEN has registered
its alpha; a partial CLOSE has written its trade row when the merge of the metadata fails;
REGISTER_COLUMNS has deleted the old columns.
-/

namespace PaperTrade.Worker

open PaperTrade.Runtime

/-! ## The verdict of a handler -/

/-- The position of a signal. -/
def foundPosition (s : Tables) (positionId : String) : Except PyError PositionRow :=
  match s.positions.find? positionId with
  | some pos => .ok pos
  | none => .error (.positionNotFound positionId)

def openVerdict (self : Executor) (env : Env) (s : Tables) (signal : OpenSignal)
    (fill : Option FillPrice) : Except PyError Unit :=
  if Blocks self s signal then .error (.duplicatePosition signal.alphaId signal.symbol)
  else if fitsInt64 signal.leverage = false then .error .intTooLarge
  else if s.positions.contains (self.openRow env signal fill).positionId then
    .error (.uniqueFailed "positions.position_id")
  else .ok ()

def modifyVerdict (s : Tables) (signal : ModifySignal) : Except PyError Unit := do
  let pos ← foundPosition s signal.positionId
  Executor.checkStop pos signal.sl
  let _ ← mergedMetadata pos signal.metadata

/-- The verdict of `close_position` on the row it has found. -/
def settleVerdict (s : Tables) (a : CloseArgs) (pos : PositionRow) : Except PyError Unit := do
  let q ← closeQuantity pos a.qty
  if q ≤ 0 then pure ()
  else do
    let o ← need pos.qty
    let trade ← closingTrade pos a.exitPrice q a.reason a.closedAt a.closeMetadata
      (if (o - q).max 0 ≤ dust then pos.positionId else a.uuid)
    if s.trades.contains trade.tradeId then .error (.uniqueFailed "trades.trade_id")
    else if (o - q).max 0 ≤ dust then pure ()
    else do
      let _ ← mergePositionRuntimeMetadata pos.metadata a.closeMetadata

def closeVerdict (self : Executor) (env : Env) (s : Tables) (signal : CloseSignal)
    (fill : Option FillPrice) : Except PyError Unit := do
  let pos ← foundPosition s signal.positionId
  let q ← Executor.checkCloseQty signal pos
  let (exit, execution) ← self.closeFill signal pos fill
  settleVerdict s (closeArgs env signal pos exit execution q) pos

/-- The rows that `register_alpha_columns` inserts, and the error that stops it: `taken` are the rows
so far. -/
def registerRows (alphaId : String) :
    ℕ → List AlphaColumnRow → List Json → List AlphaColumnRow × Except PyError Unit
  | _, taken, [] => (taken, .ok ())
  | i, taken, col :: rest =>
    match columnValues col >>= columnRow alphaId i with
    | .error e => (taken, .error e)
    | .ok row =>
      if taken.any fun r => r.columnKey = row.columnKey then
        (taken, .error (.uniqueFailed "alpha_columns.alpha_id, alpha_columns.column_key"))
      else registerRows alphaId (i + 1) (taken ++ [row]) rest

def registerVerdict (signal : RegisterColumnsSignal) : Except PyError Unit :=
  match signal.columns.loads with
  | none => .error (.invalidColumns signal.columns)
  | some (.arr columns) => (registerRows signal.alphaId 0 [] columns).2
  | some _ => .error .columnsNotArray

/-- The verdict of the handler of a signal. -/
def verdict (self : Executor) (env : Env) (s : Tables) (signal : Signal)
    (fill : Option FillPrice) : Except PyError Unit :=
  match signal with
  | .open signal => openVerdict self env s signal fill
  | .modify signal => modifyVerdict s signal
  | .close signal => closeVerdict self env s signal fill
  | .registerColumns signal => registerVerdict signal

/-- What a handler returned, without the value. -/
def status {α : Type} : Except PyError α → Except PyError Unit
  | .ok _ => .ok ()
  | .error e => .error e

lemma ClosePosition.verdict {s s' : Tables} {a : CloseArgs} {r : Except PyError Unit}
    {pos : PositionRow} (h : ClosePosition s a r s')
    (hfind : s.positions.find? a.positionId = some pos) : status r = settleVerdict s a pos := by
  have hset : ∀ {pos' q o trade}, Settles s a pos' q o trade → pos' = pos ∧
      settleVerdict s a pos = (if s.trades.contains trade.tradeId then
        .error (.uniqueFailed "trades.trade_id")
        else if (o - q).max 0 ≤ dust then pure ()
        else do
          let _ ← mergePositionRuntimeMetadata pos.metadata a.closeMetadata) := by
    intro pos' q o trade h
    obtain ⟨hf, hq, hpos, ho, hrow⟩ := h
    rw [hfind] at hf
    cases hf
    simp only [settleVerdict, hq, ho, need, hrow, bind, Except.bind, if_neg hpos, true_and]
  cases h with
  | missing hf =>
    rw [hfind] at hf
    cases hf
  | unpriced hf hq =>
    rw [hfind] at hf
    cases hf
    simp [settleVerdict, hq, bind, Except.bind, status]
  | nothing hf hq hle =>
    rw [hfind] at hf
    cases hf
    simp only [settleVerdict, hq, bind, Except.bind, if_pos hle]
    rfl
  | unsettled hf hq hpos ho hrow =>
    rw [hfind] at hf
    cases hf
    simp only [settleVerdict, hq, ho, need, hrow, bind, Except.bind, if_neg hpos, status]
  | taken h htaken => rw [(hset h).2, htaken, if_pos rfl, status]
  | full h hdust hnew _ => rw [(hset h).2, hnew, if_neg Bool.false_ne_true, if_pos hdust]; rfl
  | stuck h hdust hnew _ hmerge =>
    obtain ⟨rfl, hv⟩ := hset h
    rw [hv, hnew, if_neg Bool.false_ne_true, if_neg hdust, hmerge]
    rfl
  | partly h hdust hnew _ hmerge =>
    obtain ⟨rfl, hv⟩ := hset h
    rw [hv, hnew, if_neg Bool.false_ne_true, if_neg hdust, hmerge]
    rfl

lemma ProcessOpen.verdict {self : Executor} {env : Env} {s s' : Tables} {signal : OpenSignal}
    {fill : Option FillPrice} {r : Except PyError Outcome}
    (h : ProcessOpen self env s signal fill r s') :
    status r = openVerdict self env s signal fill := by
  unfold openVerdict
  cases h with
  | blocked hblocks => rw [if_pos hblocks, status]
  | leverage hblocks hfits => rw [if_neg hblocks, if_pos hfits, status]
  | taken hblocks hfits htaken =>
    rw [if_neg hblocks, if_neg (by simp [hfits]), if_pos htaken, status]
  | opened hblocks hfits hnew _ =>
    rw [if_neg hblocks, if_neg (by simp [hfits]), if_neg (by simp [hnew]), status]

lemma ProcessModify.verdict {s s' : Tables} {signal : ModifySignal} {r : Except PyError Outcome}
    (h : ProcessModify s signal r s') : status r = modifyVerdict s signal := by
  cases h with
  | missing hf => simp [modifyVerdict, foundPosition, hf, bind, Except.bind, status]
  | stop hf hs => simp [modifyVerdict, foundPosition, hf, hs, bind, Except.bind, status]
  | unmerged hf hs hm => simp [modifyVerdict, foundPosition, hf, hs, hm, bind, Except.bind, status]
  | modified hf hs hm =>
    simp [modifyVerdict, foundPosition, hf, hs, hm, bind, Except.bind, status, pure, Except.pure]

lemma ProcessClose.verdict {self : Executor} {env : Env} {s s' : Tables} {signal : CloseSignal}
    {fill : Option FillPrice} {r : Except PyError Outcome}
    (h : ProcessClose self env s signal fill r s') :
    status r = closeVerdict self env s signal fill := by
  cases h with
  | missing hf => simp [closeVerdict, foundPosition, hf, bind, Except.bind, status]
  | refused hf hq => simp [closeVerdict, foundPosition, hf, hq, bind, Except.bind, status]
  | unfilled hf hq hl => simp [closeVerdict, foundPosition, hf, hq, hl, bind, Except.bind, status]
  | failed hf hq hl hc =>
    simp only [closeVerdict, foundPosition, hf, hq, hl, bind, Except.bind]
    exact hc.verdict hf
  | closed hf hq _ hl hc =>
    simp only [closeVerdict, foundPosition, hf, hq, hl, bind, Except.bind]
    exact hc.verdict hf

/-! ## The registration loop -/

lemma columnRow_alphaId {alphaId : String} {i : ℕ} {v : ColumnValues} {row : AlphaColumnRow}
    (h : columnRow alphaId i v = .ok row) : row.alphaId = alphaId := by
  simp only [columnRow] at h
  obtain ⟨_, -, h⟩ := bind_eq_ok h
  obtain ⟨_, -, h⟩ := bind_eq_ok h
  obtain ⟨_, -, h⟩ := bind_eq_ok h
  obtain ⟨_, -, h⟩ := bind_eq_ok h
  obtain ⟨_, -, h⟩ := bind_eq_ok h
  obtain ⟨_, -, h⟩ := bind_eq_ok h
  obtain ⟨_, -, h⟩ := bind_eq_ok h
  cases h
  rfl

/-- Among the rows of other alphas only the rows taken so far can collide. -/
lemma contains_taken (key : String) {alphaId : String} {t : Table fun r : AlphaColumnRow =>
    (r.alphaId, r.columnKey)} {base taken : List AlphaColumnRow} (hrows : t.rows = base ++ taken)
    (hbase : ∀ r ∈ base, r.alphaId ≠ alphaId) (htaken : ∀ r ∈ taken, r.alphaId = alphaId) :
    t.contains (alphaId, key) = taken.any fun r => r.columnKey = key := by
  rw [Bool.eq_iff_iff, Table.contains_iff, hrows]
  simp only [List.mem_append, Prod.mk.injEq, List.any_eq_true, decide_eq_true_eq]
  constructor
  · rintro ⟨r, hr | hr, ha, hk⟩
    · exact absurd ha (hbase r hr)
    · exact ⟨r, hr, hk⟩
  · rintro ⟨r, hr, hk⟩
    exact ⟨r, .inr hr, htaken r hr, hk⟩

/-- The loop inserts `registerRows` and touches nothing else. -/
lemma InsertColumns.rows {alphaId : String} {i : ℕ} {columns : List Json} {s s' : Tables}
    {r : Except PyError Unit} (h : InsertColumns alphaId i columns s r s')
    (base taken : List AlphaColumnRow) (hrows : s.alphaColumns.rows = base ++ taken)
    (hbase : ∀ r ∈ base, r.alphaId ≠ alphaId) (htaken : ∀ r ∈ taken, r.alphaId = alphaId) :
    s'.alphaColumns.rows = base ++ (registerRows alphaId i taken columns).1 ∧
      r = (registerRows alphaId i taken columns).2 ∧ s'.alphas = s.alphas := by
  induction h generalizing taken with
  | nil => exact ⟨hrows, rfl, rfl⟩
  | unread hread =>
    simp only [registerRows, hread, bind, Except.bind]
    exact ⟨hrows, trivial, trivial⟩
  | @refused i col rest s v e hread hinsert =>
    simp only [registerRows, hread, bind, Except.bind]
    cases hrow : columnRow alphaId i v with
    | error e' =>
      simp only [insertColumn, hrow, bind, Except.bind] at hinsert
      cases hinsert
      exact ⟨hrows, rfl, trivial⟩
    | ok row =>
      have hid := columnRow_alphaId hrow
      have hcontains : s.alphaColumns.contains (row.alphaId, row.columnKey) = true := by
        by_contra hfree
        obtain ⟨u, hu, -⟩ := exists_insertUnique
          "alpha_columns.alpha_id, alpha_columns.column_key" s.alphaColumns row (by simpa using hfree)
        simp [insertColumn, hrow, hu, bind, Except.bind, pure, Except.pure] at hinsert
      have htakes := contains_taken row.columnKey hrows hbase htaken
      rw [← hid, hcontains] at htakes
      simp only [insertColumn, hrow, bind, Except.bind,
        insertUnique_of_contains (t := s.alphaColumns) (r := row) hcontains] at hinsert
      cases hinsert
      simp only [← htakes, if_true]
      exact ⟨hrows, trivial, trivial⟩
  | @inserted i col rest s v s₁ r s₂ hread hinsert _ ih =>
    obtain ⟨row, cols, hrow, hfree, hcols, rfl⟩ := insertColumn_eq_ok hinsert
    have hid := columnRow_alphaId hrow
    have htakes := contains_taken row.columnKey hrows hbase htaken
    rw [← hid, hfree] at htakes
    simp only [registerRows, hread, bind, Except.bind, hrow, ← htakes, Bool.false_eq_true, if_false]
    refine ih (taken ++ [row]) ?_ fun r hr => ?_
    · rw [hcols, hrows, List.append_assoc]
    · rcases List.mem_append.mp hr with hr | hr
      · exact htaken r hr
      · rw [List.mem_singleton.mp hr, hid]

/-! ## What is left of a rejected signal -/

/-- Two tables hold the same rows. -/
def SameRows {ρ κ : Type} {key : ρ → κ} (t u : Table key) : Prop := ∀ r, r ∈ t.rows ↔ r ∈ u.rows

lemma SameRows.rfl' {ρ κ : Type} {key : ρ → κ} (t : Table key) : SameRows t t := fun _ => Iff.rfl

/-- A table with a new key does not hold the same rows. -/
lemma not_sameRows_of_append {ρ κ : Type} [DecidableEq κ] {key : ρ → κ} {t u : Table key} {r : ρ}
    (hrows : u.rows = t.rows ++ [r]) (hnew : t.contains (key r) = false) : ¬ SameRows u t := by
  intro h
  have hr : r ∈ t.rows := (h r).mp (hrows ▸ List.mem_append_right _ (List.mem_singleton_self r))
  exact (t.not_contains_iff _).mp hnew r hr rfl

lemma sameRows_insertOrIgnore_iff {ρ κ : Type} [DecidableEq κ] {key : ρ → κ} (t : Table key)
    (r : ρ) : SameRows (t.insertOrIgnore r) t ↔ t.contains (key r) = true := by
  cases h : t.contains (key r) with
  | true => simp [Table.insertOrIgnore_of_contains h, SameRows]
  | false =>
    simp only [Bool.false_eq_true, iff_false]
    exact not_sameRows_of_append (Table.rows_insertOrIgnore_of_not_contains h) h

/-- The four tables of a signal hold the rows they held before. -/
structure Unchanged (s s' : Tables) : Prop where
  alphas : SameRows s'.alphas s.alphas
  positions : SameRows s'.positions s.positions
  trades : SameRows s'.trades s.trades
  alphaColumns : SameRows s'.alphaColumns s.alphaColumns

/-- A partial CLOSE gets as far as the merge of the metadata, and the merge fails. -/
def Stuck (self : Executor) (env : Env) (s : Tables) (signal : CloseSignal)
    (fill : Option FillPrice) : Prop :=
  ∃ pos q exit execution q' o trade e, Executor.checkCloseQty signal pos = .ok q ∧
    self.closeFill signal pos fill = .ok (exit, execution) ∧
    Settles s (closeArgs env signal pos exit execution q) pos q' o trade ∧
    ¬ (o - q').max 0 ≤ dust ∧ s.trades.contains trade.tradeId = false ∧
    mergePositionRuntimeMetadata pos.metadata
      (closeArgs env signal pos exit execution q).closeMetadata = .error e

/-- Nothing is written before the error: the alpha of an OPEN is registered, a CLOSE is not stuck,
and the columns of the alpha are those that a REGISTER_COLUMNS gets to insert. -/
def WritesNothing (self : Executor) (env : Env) (s : Tables) (signal : Signal)
    (fill : Option FillPrice) : Prop :=
  match signal with
  | .open signal => s.alphas.contains signal.alphaId = true
  | .modify _ => True
  | .close signal => ¬ Stuck self env s signal fill
  | .registerColumns signal =>
    match signal.columns.loads with
    | some (.arr columns) => s.alphas.contains signal.alphaId = true ∧
        ∀ r, r ∈ (registerRows signal.alphaId 0 [] columns).1 ↔
          r ∈ s.alphaColumns.rows ∧ r.alphaId = signal.alphaId
    | _ => True

lemma ProcessOpen.unchanged_iff {self : Executor} {env : Env} {s s' : Tables}
    {signal : OpenSignal} {fill : Option FillPrice} {e : PyError}
    (h : ProcessOpen self env s signal fill (.error e) s') :
    Unchanged s s' ↔ s.alphas.contains signal.alphaId = true := by
  have hs' : s' = s.withAlpha env.now signal.alphaId := by cases h <;> rfl
  rw [hs', ← sameRows_insertOrIgnore_iff s.alphas ⟨signal.alphaId, signal.alphaId, env.now, "active"⟩]
  exact ⟨fun h => h.alphas, fun h => ⟨h, SameRows.rfl' _, SameRows.rfl' _, SameRows.rfl' _⟩⟩

lemma Unchanged.refl (s : Tables) : Unchanged s s :=
  ⟨SameRows.rfl' _, SameRows.rfl' _, SameRows.rfl' _, SameRows.rfl' _⟩

lemma ProcessClose.unchanged_iff {self : Executor} {env : Env} {s s' : Tables}
    {signal : CloseSignal} {fill : Option FillPrice} {e : PyError}
    (h : ProcessClose self env s signal fill (.error e) s') :
    Unchanged s s' ↔ ¬ Stuck self env s signal fill := by
  -- a stuck close has written its trade row
  have hstuck : Stuck self env s signal fill → ¬ Unchanged s s' := by
    rintro ⟨pos, q, exit, execution, q', o, trade, e', hq, hl, hset, hpartly, hnew, hmerge⟩ hun
    have hf := hset.found
    simp only [closeArgs] at hf
    cases h with
    | missing hf' =>
      rw [hf] at hf'
      cases hf'
    | refused hf' hq' =>
      rw [hf] at hf'
      cases hf'
      rw [hq] at hq'
      cases hq'
    | unfilled hf' _ hl' =>
      rw [hf] at hf'
      cases hf'
      rw [hl] at hl'
      cases hl'
    | failed hf' hq' hl' hc =>
      rw [hf] at hf'
      cases hf'
      rw [hq] at hq'
      cases hq'
      rw [hl] at hl'
      cases hl'
      rcases hc.of_settles hset with ⟨h, -⟩ | ⟨-, trades, htrades, -, hs'⟩
      · rw [hnew] at h
        cases h
      · have htr := hun.trades
        rw [hs' e' hpartly hmerge] at htr
        exact not_sameRows_of_append htrades hnew htr
  refine ⟨fun hun hst => hstuck hst hun, fun hnot => ?_⟩
  cases h with
  | missing _ => exact .refl s
  | refused _ _ => exact .refl s
  | unfilled _ _ _ => exact .refl s
  | failed hf hq hl hc =>
    cases hc with
    | unpriced _ _ => exact .refl s
    | unsettled _ _ _ _ _ => exact .refl s
    | taken _ _ => exact .refl s
    | stuck hset hpartly hnew _ hmerge =>
      have hpos := hset.found
      simp only [closeArgs] at hpos
      rw [hf] at hpos
      cases hpos
      exact absurd ⟨_, _, _, _, _, _, _, _, hq, hl, hset, hpartly, hnew, hmerge⟩ hnot

lemma registerRows_alphaId (alphaId : String) (i : ℕ) (taken : List AlphaColumnRow)
    (columns : List Json) (htaken : ∀ r ∈ taken, r.alphaId = alphaId) :
    ∀ r ∈ (registerRows alphaId i taken columns).1, r.alphaId = alphaId := by
  induction columns generalizing i taken with
  | nil => exact htaken
  | cons col rest ih =>
    unfold registerRows
    split
    · exact htaken
    · rename_i row hrow
      split
      · exact htaken
      · refine ih _ _ fun r hr => ?_
        rcases List.mem_append.mp hr with hr | hr
        · exact htaken r hr
        · obtain ⟨v, -, hv⟩ := bind_eq_ok hrow
          rw [List.mem_singleton.mp hr, columnRow_alphaId hv]

/-- What the loop of `register_alpha_columns` leaves, started as `process_register_columns` does. -/
lemma InsertColumns.registered {env : Env} {s s' : Tables} {alphaId : String}
    {columns : List Json} {r : Except PyError Unit}
    (h : InsertColumns alphaId 0 columns
      ((s.withAlpha env.now alphaId).withoutColumns alphaId) r s') :
    s'.alphaColumns.rows = s.alphaColumns.rows.filter (fun r => r.alphaId ≠ alphaId) ++
        (registerRows alphaId 0 [] columns).1 ∧
      r = (registerRows alphaId 0 [] columns).2 ∧
      s'.alphas = s.alphas.insertOrIgnore ⟨alphaId, alphaId, env.now, "active"⟩ :=
  h.rows (s.alphaColumns.rows.filter fun r => r.alphaId ≠ alphaId) []
    (by simp [Tables.withoutColumns, Tables.withAlpha])
    (fun r hr => by simpa using (List.mem_filter.mp hr).2) fun r hr => nomatch hr

lemma ProcessRegisterColumns.unchanged_iff (ex : Executor) {env : Env} {s s' : Tables}
    {signal : RegisterColumnsSignal} {e : PyError}
    (h : ProcessRegisterColumns env s signal (.error e) s') :
    Unchanged s s' ↔ WritesNothing ex env s (.registerColumns signal) none := by
  unfold WritesNothing
  cases h with
  | invalid hloads => simp [hloads, Unchanged.refl]
  | @notArray v hloads harr =>
    cases v with
    | arr l => exact absurd rfl (harr l)
    | _ => simp [hloads, Unchanged.refl]
  | @failed columns _ _ hloads hins =>
    obtain ⟨hcols, -, halphas⟩ := hins.registered
    obtain ⟨hpos, htrades⟩ := hins.sameLedger
    have hids := registerRows_alphaId signal.alphaId 0 [] columns (fun r hr => nomatch hr)
    simp only [hloads]
    rw [← sameRows_insertOrIgnore_iff s.alphas ⟨signal.alphaId, signal.alphaId, env.now, "active"⟩]
    constructor
    · intro hun
      refine ⟨halphas ▸ hun.alphas, fun r => ?_⟩
      have hr := hun.alphaColumns r
      rw [hcols, List.mem_append, List.mem_filter, decide_eq_true_eq] at hr
      constructor
      · exact fun hacc => ⟨hr.mp (.inr hacc), hids r hacc⟩
      · rintro ⟨hmem, hid⟩
        rcases hr.mpr hmem with ⟨-, hne⟩ | hacc
        · exact absurd hid hne
        · exact hacc
    · rintro ⟨ha, hr⟩
      refine ⟨halphas ▸ ha, ?_, ?_, fun r => ?_⟩
      · rw [hpos]
        exact SameRows.rfl' _
      · rw [htrades]
        exact SameRows.rfl' _
      · rw [hcols, List.mem_append, List.mem_filter, decide_eq_true_eq, hr r]
        by_cases hid : r.alphaId = signal.alphaId <;> simp [hid]

lemma Handle.unchanged_iff {self : Executor} {env : Env} {s s' : Tables} {signal : Signal}
    {fill : Option FillPrice} {e : PyError} (h : Handle self env s signal fill (.error e) s') :
    Unchanged s s' ↔ WritesNothing self env s signal fill := by
  cases signal with
  | «open» signal => exact ProcessOpen.unchanged_iff h
  | modify signal =>
    refine ⟨fun _ => trivial, fun _ => ?_⟩
    cases h <;> exact .refl s
  | close signal => exact ProcessClose.unchanged_iff h
  | registerColumns signal => exact ProcessRegisterColumns.unchanged_iff self h

lemma Handle.verdict {self : Executor} {env : Env} {s s' : Tables} {signal : Signal}
    {fill : Option FillPrice} {r : Except PyError Outcome}
    (h : Handle self env s signal fill r s') : status r = verdict self env s signal fill := by
  cases signal with
  | «open» signal => exact ProcessOpen.verdict h
  | modify signal => exact ProcessModify.verdict h
  | close signal => exact ProcessClose.verdict h
  | registerColumns signal =>
    change _ = registerVerdict signal
    unfold registerVerdict
    cases h with
    | invalid hloads => simp [hloads, status]
    | @notArray v hloads harr =>
      cases v with
      | arr l => exact absurd rfl (harr l)
      | _ => simp [hloads, status]
    | failed hloads hins =>
      simp only [hloads]
      exact hins.registered.2.1
    | registered hloads hins =>
      simp only [hloads]
      exact hins.registered.2.1

/-! ## Messages -/

/-- Why a message is refused: what the parser says, else what its handler says. -/
def refusal (self : Executor) (s : Tables) (m : Delivery) : Option PyError :=
  if Duplicate s m.data then none
  else
    match parseSignal m.data with
    | .error e => some e
    | .ok signal =>
      match verdict self m.env s signal (fillAt m.env s signal) with
      | .error e => some e
      | .ok _ => none

/-- The rows that a message adds to the audit log. -/
def newRows (self : Executor) (s : Tables) (m : Delivery) : List SignalRow :=
  (deliver self s m).signals.drop s.signals.length

/-- If an error is recorded for the message, the four tables hold the rows they held, and the audit
log has one new row, processed and with the error. -/
def RejectedCleanly (self : Executor) (s : Tables) (m : Delivery) : Prop :=
  ∀ e, (∃ r ∈ newRows self s m, r.error = some e) →
    Unchanged s (deliver self s m) ∧
      (deliver self s m).signals =
        s.signals ++ [{ logRow m.env m.data with processed := true, error := some e }]

/-- Every earlier row with this id is marked with this error already. -/
def MarkedAlready (s : Tables) (id : String) (e : PyError) : Prop :=
  ∀ r ∈ s.signals, r.signalId = id → r.processed = true ∧ r.error = some e

/-- A refused message is harmless: its handler writes nothing before the error, and the rows that
the marking of its id touches are marked already. -/
def Harmless (self : Executor) (s : Tables) (m : Delivery) : Prop :=
  ∀ e, refusal self s m = some e → MarkedAlready s m.data.signalIdOr e ∧
    ∀ signal, parseSignal m.data = .ok signal →
      WritesNothing self m.env s signal (fillAt m.env s signal)

lemma markRow_eq_self {id : String} {e : PyError} {r : SignalRow} :
    markRow id (some e) r = r ↔ (r.signalId = id → r.processed = true ∧ r.error = some e) := by
  unfold markRow
  by_cases h : r.signalId = id
  · cases r
    simp_all [eq_comm]
  · simp [h]

/-- The audit log after a message with the error or success `error`. -/
lemma signals_mark {s s' : Tables} {env : Env} {data : RawSignal} (error : Option PyError)
    (h : SameAudit (s.log (logRow env data)) s') :
    (s'.mark data.signalIdOr error).signals =
      s.signals.map (markRow data.signalIdOr error) ++
        [{ logRow env data with processed := true, error := error }] := by
  simp [Tables.mark, h.signals, Tables.log, markRow, logRow]

lemma signals_eq_iff {l : List SignalRow} {id : String} {e : PyError} {last : SignalRow} :
    l.map (markRow id (some e)) ++ [last] = l ++ [last] ↔
      ∀ r ∈ l, r.signalId = id → r.processed = true ∧ r.error = some e := by
  rw [List.append_left_inj]
  constructor
  · intro h r hr
    rw [← markRow_eq_self]
    obtain ⟨i, hi, rfl⟩ := List.getElem_of_mem hr
    have := congrArg (fun t => t[i]?) h
    simpa [hi] using this
  · intro h
    refine (List.map_congr_left fun r hr => ?_).trans (List.map_id _)
    exact markRow_eq_self.mpr (h r hr)

lemma settles_log {s : Tables} {row : SignalRow} {a : CloseArgs} {pos : PositionRow}
    {q o : PyFloat} {t : TradeRow} : Settles (s.log row) a pos q o t ↔ Settles s a pos q o t :=
  ⟨fun h => ⟨h.found, h.quantity, h.positive, h.openQty, h.row⟩,
    fun h => ⟨h.found, h.quantity, h.positive, h.openQty, h.row⟩⟩

/-- The audit log is not among the tables that a handler reads. -/
lemma writesNothing_log {self : Executor} {env : Env} {s : Tables} {row : SignalRow}
    {signal : Signal} {fill : Option FillPrice} :
    WritesNothing self env (s.log row) signal fill ↔ WritesNothing self env s signal fill := by
  cases signal with
  | «open» _ => exact Iff.rfl
  | modify _ => exact Iff.rfl
  | close _ => simp only [WritesNothing, Stuck, settles_log, trades_log]
  | registerColumns _ => exact Iff.rfl

lemma verdict_log {self : Executor} {env : Env} {s : Tables} (row : SignalRow) {signal : Signal}
    {fill : Option FillPrice} :
    verdict self env (s.log row) signal fill = verdict self env s signal fill := by
  cases signal <;> rfl

lemma unchanged_log_mark {s s' : Tables} (row : SignalRow) {id : String}
    {error : Option PyError} : Unchanged s (s'.mark id error) ↔ Unchanged (s.log row) s' :=
  ⟨fun h => ⟨h.alphas, h.positions, h.trades, h.alphaColumns⟩,
    fun h => ⟨h.alphas, h.positions, h.trades, h.alphaColumns⟩⟩

/-- The one new row of a message that is not a duplicate. -/
lemma drop_signals_mark {s s' : Tables} {env : Env} {data : RawSignal} (error : Option PyError)
    (h : SameAudit (s.log (logRow env data)) s') :
    (s'.mark data.signalIdOr error).signals.drop s.signals.length =
      [{ logRow env data with processed := true, error := error }] := by
  rw [signals_mark error h, List.drop_append_of_le_length (by simp)]
  simp

lemma verdict_of_handle {self : Executor} {m : Delivery} {s s' : Tables} {signal : Signal}
    {r : Except PyError Outcome} (h : Handle self m.env (s.log (logRow m.env m.data)) signal
      (fillAt m.env s signal) r s') :
    verdict self m.env s signal (fillAt m.env s signal) = status r := by
  rw [← verdict_log (logRow m.env m.data), h.verdict]

/-- Whether a rejected message leaves everything but the audit log alone is decided by the tables it
finds. -/
theorem rejected_cleanly_iff (self : Executor) (s : Tables) (m : Delivery) :
    RejectedCleanly self s m ↔ Harmless self s m := by
  have hd := deliver_cases self m s
  unfold RejectedCleanly newRows Harmless refusal
  generalize deliver self s m = s', reply self s m = r at hd
  cases hd with
  | duplicate hdup =>
    rw [if_pos hdup]
    simp
  | @unparsable e hnew hparse =>
    have hsame : SameAudit (s.log (logRow m.env m.data)) (s.log (logRow m.env m.data)) :=
      ⟨rfl, rfl, rfl, rfl⟩
    rw [if_neg hnew, drop_signals_mark (some e) hsame, signals_mark (some e) hsame]
    simp only [hparse, List.mem_singleton, exists_eq_left, Option.some.injEq, forall_eq',
      signals_eq_iff, MarkedAlready, reduceCtorEq, false_implies, implies_true, and_true]
    exact ⟨fun h => h.2, fun h => ⟨(unchanged_log_mark _).mpr (.refl _), h⟩⟩
  | @rejected signal e s₁ hnew hparse h =>
    rw [if_neg hnew, drop_signals_mark (some e) h.sameAudit, signals_mark (some e) h.sameAudit]
    simp only [hparse, verdict_of_handle h, status, List.mem_singleton, exists_eq_left,
      Option.some.injEq, forall_eq', signals_eq_iff, MarkedAlready, Except.ok.injEq]
    rw [unchanged_log_mark (logRow m.env m.data), h.unchanged_iff, writesNothing_log]
    exact and_comm
  | @accepted signal o s₁ hnew hparse h =>
    rw [if_neg hnew, drop_signals_mark none h.sameAudit]
    simp [hparse, verdict_of_handle h, status]

/-- A REGISTER_COLUMNS with this column list. -/
def register (signalId columns : String) : Delivery where
  data := {
    type := "REGISTER_COLUMNS", alphaId := "alpha", signalId := signalId
    columns := some (.chars columns) }
  env := { now := "2024-01-01T00:00:00", uuid := signalId }

/-- The alpha has one column. -/
def oneColumn : Tables := deliver {} .empty (register "columns-1" "[\x7b\"key\": \"score\"\x7d]")

/-- A column without a key is an error, and the column that the alpha had is gone. -/
theorem register_without_key_not_clean :
    oneColumn.alphaColumns.rows.length = 1 ∧
      ¬ RejectedCleanly {} oneColumn (register "columns-2" "[\x7b\"label\": \"Score\"\x7d]") := by
  have hbefore : oneColumn.alphaColumns.rows.length = 1 := by decide +kernel
  refine ⟨hbefore, fun h => ?_⟩
  obtain ⟨r, hr, herr⟩ := List.any_eq_true.mp
    (show (newRows {} oneColumn (register "columns-2" "[\x7b\"label\": \"Score\"\x7d]")).any
      (fun r => r.error.isSome) = true by decide +kernel)
  obtain ⟨e, he⟩ := Option.isSome_iff_exists.mp herr
  have hsame := (h e ⟨r, hr, he⟩).1.alphaColumns
  have hafter : (deliver {} oneColumn
      (register "columns-2" "[\x7b\"label\": \"Score\"\x7d]")).alphaColumns.rows.length = 0 := by
    decide +kernel
  obtain ⟨c, hc⟩ := List.length_eq_one_iff.mp hbefore
  have hgone := (hsame c).mpr (hc ▸ List.mem_singleton_self c)
  rw [List.eq_nil_of_length_eq_zero hafter] at hgone
  cases hgone

end PaperTrade.Worker
