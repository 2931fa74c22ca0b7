import PaperTrade.Worker.Behaviour

/-!
# What a message does

The column registration, the four handlers as one relation `Handle`, and `Delivers`: the four ways
a message can go. A message never raises out of `process_signal_message` on an idle connection, and
leaves the connection idle (`processSignalMessage_run`), so a list of messages is a fold of
`deliver` over the tables.
-/

namespace PaperTrade.Worker

open PaperTrade.Runtime

/-! ## REGISTER_COLUMNS -/

/-- The loop of `register_alpha_columns`, inside a transaction. -/
inductive InsertColumns (alphaId : String) :
    ℕ → List Json → Tables → Except PyError Unit → Tables → Prop
  | nil {i s} : InsertColumns alphaId i [] s (.ok ()) s
  | unread {i col rest s e} (hread : columnValues col = .error e) :
      InsertColumns alphaId i (col :: rest) s (.error e) s
  | refused {i col rest s v e} (hread : columnValues col = .ok v)
      (hinsert : insertColumn alphaId i v s = .error e) :
      InsertColumns alphaId i (col :: rest) s (.error e) s
  | inserted {i col rest s v s₁ r s₂} (hread : columnValues col = .ok v)
      (hinsert : insertColumn alphaId i v s = .ok s₁)
      (hrest : InsertColumns alphaId (i + 1) rest s₁ r s₂) :
      InsertColumns alphaId i (col :: rest) s r s₂

theorem insertColumns_run (alphaId : String) (c : Tables) :
    ∀ (i : ℕ) (columns : List Json) (s : Tables),
      ∃ r s', (insertColumns alphaId i columns).run (.within c s) = (r, .within c s') ∧
        InsertColumns alphaId i columns s r s'
  | _, [], s => ⟨_, _, rfl, .nil⟩
  | i, col :: rest, s => by
    simp only [insertColumns, Coro.run_bind, Coro.run_ofExcept]
    cases hread : columnValues col with
    | error e => exact ⟨_, _, rfl, .unread hread⟩
    | ok v =>
    simp only [run_execute]
    cases hinsert : insertColumn alphaId i v s with
    | error e => exact ⟨_, _, rfl, .refused hread hinsert⟩
    | ok s₁ =>
    obtain ⟨r, s₂, hrun, hrest⟩ := insertColumns_run alphaId c (i + 1) rest s₁
    exact ⟨r, s₂, hrun, .inserted hread hinsert hrest⟩

/-- `DELETE FROM alpha_columns WHERE alpha_id = ?`. -/
def Tables.withoutColumns (s : Tables) (alphaId : String) : Tables :=
  { s with alphaColumns := s.alphaColumns.filter fun r => r.alphaId ≠ alphaId }

section Register

variable (env : Env) (s : Tables) (signal : RegisterColumnsSignal)

/-- What `process_register_columns` does inside a transaction. -/
inductive ProcessRegisterColumns : Except PyError Outcome → Tables → Prop
  | invalid (hloads : signal.columns.loads = none) :
      ProcessRegisterColumns (.error (.invalidColumns signal.columns)) s
  | notArray {v} (hloads : signal.columns.loads = some v) (harr : ∀ l, v ≠ .arr l) :
      ProcessRegisterColumns (.error .columnsNotArray) s
  | failed {columns e s'} (hloads : signal.columns.loads = some (.arr columns))
      (hinsert : InsertColumns signal.alphaId 0 columns
        ((s.withAlpha env.now signal.alphaId).withoutColumns signal.alphaId) (.error e) s') :
      ProcessRegisterColumns (.error e) s'
  | registered {columns s'} (hloads : signal.columns.loads = some (.arr columns))
      (hinsert : InsertColumns signal.alphaId 0 columns
        ((s.withAlpha env.now signal.alphaId).withoutColumns signal.alphaId) (.ok ()) s') :
      ProcessRegisterColumns (.ok (.columnsRegistered signal.alphaId columns.length)) s'

theorem processRegisterColumns_run (c : Tables) :
    ∃ r s', (Executor.processRegisterColumns env signal).run (.within c s) = (r, .within c s') ∧
      ProcessRegisterColumns env s signal r s' := by
  simp only [Executor.processRegisterColumns]
  split
  · rename_i hloads
    exact ⟨_, _, rfl, .invalid hloads⟩
  · rename_i columns hloads
    obtain ⟨r, s', hrun, hinsert⟩ := insertColumns_run signal.alphaId c 0 columns
      ((s.withAlpha env.now signal.alphaId).withoutColumns signal.alphaId)
    simp only [Coro.run_bind, run_registerAlpha, registerAlphaColumns, run_execute]
    simp only [Tables.withoutColumns] at hrun
    simp only [hrun]
    cases r with
    | error e => exact ⟨_, _, rfl, .failed hloads hinsert⟩
    | ok _ => exact ⟨_, _, rfl, .registered hloads hinsert⟩
  · rename_i v harr hloads
    exact ⟨_, _, rfl, .notArray hloads harr⟩

end Register

/-! ## The handlers -/

/-- What the handler of a signal does inside a transaction. -/
def Handle (self : Executor) (env : Env) (s : Tables) (signal : Signal) (fill : Option FillPrice)
    (r : Except PyError Outcome) (s' : Tables) : Prop :=
  match signal with
  | .open signal => ProcessOpen self env s signal fill r s'
  | .modify signal => ProcessModify s signal r s'
  | .close signal => ProcessClose self env s signal fill r s'
  | .registerColumns signal => ProcessRegisterColumns env s signal r s'

theorem handle_run (self : Executor) (env : Env) (c s : Tables) (signal : Signal)
    (fill : Option FillPrice) :
    ∃ r s', (handle self env signal fill).run (.within c s) = (r, .within c s') ∧
      Handle self env s signal fill r s' := by
  cases signal with
  | «open» signal => exact processOpen_run self env s signal fill c
  | modify signal => exact processModify_run s signal c
  | close signal => exact processClose_run self env s signal fill c
  | registerColumns signal => exact processRegisterColumns_run env s signal c

/-- The tables that no handler touches. -/
structure SameAudit (s s' : Tables) : Prop where
  signals : s'.signals = s.signals
  virtualPositions : s'.virtualPositions = s.virtualPositions
  virtualTrades : s'.virtualTrades = s.virtualTrades
  virtualTradeEvents : s'.virtualTradeEvents = s.virtualTradeEvents

lemma ClosePosition.sameAudit {s s' : Tables} {a : CloseArgs} {r : Except PyError Unit}
    (h : ClosePosition s a r s') : SameAudit s s' := by
  cases h <;> exact ⟨rfl, rfl, rfl, rfl⟩

lemma insertColumn_eq_ok {alphaId : String} {i : ℕ} {v : ColumnValues} {s s' : Tables}
    (h : insertColumn alphaId i v s = .ok s') :
    ∃ row columns, columnRow alphaId i v = .ok row ∧
      s.alphaColumns.contains (row.alphaId, row.columnKey) = false ∧
      columns.rows = s.alphaColumns.rows ++ [row] ∧ s' = { s with alphaColumns := columns } := by
  simp only [insertColumn, bind, Except.bind, pure, Except.pure] at h
  cases hrow : columnRow alphaId i v with
  | error e => simp [hrow] at h
  | ok row =>
  simp only [hrow] at h
  split at h
  · cases h
  · rename_i columns hins
    cases h
    obtain ⟨hnew, hrows⟩ := insertUnique_eq_ok.mp hins
    exact ⟨row, columns, rfl, hnew, hrows, rfl⟩

lemma InsertColumns.sameAudit {alphaId : String} {i : ℕ} {columns : List Json} {s s' : Tables}
    {r : Except PyError Unit} (h : InsertColumns alphaId i columns s r s') : SameAudit s s' := by
  induction h with
  | nil => exact ⟨rfl, rfl, rfl, rfl⟩
  | unread _ => exact ⟨rfl, rfl, rfl, rfl⟩
  | refused _ _ => exact ⟨rfl, rfl, rfl, rfl⟩
  | inserted _ hinsert _ ih =>
    obtain ⟨_, _, _, _, _, rfl⟩ := insertColumn_eq_ok hinsert
    exact ⟨ih.signals, ih.virtualPositions, ih.virtualTrades, ih.virtualTradeEvents⟩

lemma InsertColumns.sameLedger {alphaId : String} {i : ℕ} {columns : List Json} {s s' : Tables}
    {r : Except PyError Unit} (h : InsertColumns alphaId i columns s r s') :
    s'.positions = s.positions ∧ s'.trades = s.trades := by
  induction h with
  | nil => exact ⟨rfl, rfl⟩
  | unread _ => exact ⟨rfl, rfl⟩
  | refused _ _ => exact ⟨rfl, rfl⟩
  | inserted _ hinsert _ ih =>
    obtain ⟨_, _, _, _, _, rfl⟩ := insertColumn_eq_ok hinsert
    exact ih

lemma Handle.sameAudit {self : Executor} {env : Env} {s s' : Tables} {signal : Signal}
    {fill : Option FillPrice} {r : Except PyError Outcome}
    (h : Handle self env s signal fill r s') : SameAudit s s' := by
  cases signal with
  | «open» signal => cases h <;> exact ⟨rfl, rfl, rfl, rfl⟩
  | modify signal => cases h <;> exact ⟨rfl, rfl, rfl, rfl⟩
  | close signal =>
    cases h with
    | missing _ => exact ⟨rfl, rfl, rfl, rfl⟩
    | refused _ _ => exact ⟨rfl, rfl, rfl, rfl⟩
    | unfilled _ _ _ => exact ⟨rfl, rfl, rfl, rfl⟩
    | failed _ _ _ hclose => exact hclose.sameAudit
    | closed _ _ _ _ hclose => exact hclose.sameAudit
  | registerColumns signal =>
    cases h with
    | invalid _ => exact ⟨rfl, rfl, rfl, rfl⟩
    | notArray _ _ => exact ⟨rfl, rfl, rfl, rfl⟩
    | failed _ hinsert => exact { hinsert.sameAudit with }
    | registered _ hinsert => exact { hinsert.sameAudit with }

/-! ## Messages -/

/-- The duplicate check fires. -/
def Duplicate (s : Tables) (data : RawSignal) : Prop :=
  data.signalIdOr ≠ "unknown" ∧ isProcessed s data.signalIdOr = true

instance (s : Tables) (data : RawSignal) : Decidable (Duplicate s data) :=
  inferInstanceAs (Decidable (_ ∧ _))

/-- The fill price a signal is handled with. -/
def fillAt (env : Env) (s : Tables) (signal : Signal) : Option FillPrice :=
  match env.fill, signal with
  | some service, .open signal => (service (openRequest signal)).map .resolved
  | some service, .close signal =>
    (s.positions.find? signal.positionId).bind fun pos =>
      (service (closeRequest signal pos)).map .resolved
  | _, _ => none

/-- The four ways a message can go. -/
inductive Delivers (self : Executor) (m : Delivery) (s : Tables) : Option Outcome → Tables → Prop
  | duplicate (hdup : Duplicate s m.data) : Delivers self m s none s
  | unparsable {e} (hnew : ¬ Duplicate s m.data) (hparse : parseSignal m.data = .error e) :
      Delivers self m s none ((s.log (logRow m.env m.data)).mark m.data.signalIdOr (some e))
  | rejected {signal e s'} (hnew : ¬ Duplicate s m.data) (hparse : parseSignal m.data = .ok signal)
      (hhandle : Handle self m.env (s.log (logRow m.env m.data)) signal (fillAt m.env s signal)
        (.error e) s') :
      Delivers self m s none (s'.mark m.data.signalIdOr (some e))
  | accepted {signal o s'} (hnew : ¬ Duplicate s m.data) (hparse : parseSignal m.data = .ok signal)
      (hhandle : Handle self m.env (s.log (logRow m.env m.data)) signal (fillAt m.env s signal)
        (.ok o) s') :
      Delivers self m s (some o) (s'.mark m.data.signalIdOr none)

theorem isDuplicate_run (conn : Conn) (data : RawSignal) :
    (isDuplicate data).run conn = (.ok (decide (Duplicate conn.current data)), conn) := by
  unfold isDuplicate
  split
  · rename_i hid
    simp [signalProcessed, Duplicate, hid]
  · rename_i hid
    simp [Duplicate, hid]

theorem resolveFill_run (env : Env) (conn : Conn) (signal : Signal) :
    (resolveFill env signal).run conn = (.ok (fillAt env conn.current signal), conn) := by
  cases hfill : env.fill with
  | none => simp [resolveFill, fillAt, hfill]
  | some service =>
    cases signal with
    | «open» signal =>
      simp only [resolveFill, fillAt, hfill]
      rfl
    | close signal =>
      simp only [resolveFill, fillAt, hfill, Coro.run_bind, run_getPosition]
      cases conn.current.positions.find? signal.positionId <;> rfl
    | modify _ => simp [resolveFill, fillAt, hfill]
    | registerColumns _ => simp [resolveFill, fillAt, hfill]

lemma processParsed_run (self : Executor) (env : Env) (c s : Tables) (data : RawSignal)
    (signal : Signal) (fill : Option FillPrice) :
    ∃ r s', Handle self env (s.log (logRow env data)) signal fill r s' ∧
      (processParsed self env data signal fill).run (.within c s) =
        match r with
        | .ok o => (.ok (some o), .within c (s'.mark data.signalIdOr none))
        | .error e => (.ok none, .within c (s'.mark data.signalIdOr (some e))) := by
  obtain ⟨r, s', hrun, hhandle⟩ := handle_run self env c (s.log (logRow env data)) signal fill
  refine ⟨r, s', hhandle, ?_⟩
  simp only [processParsed, Coro.run_bind, run_logSignal, tryCatch, tryCatchThe,
    MonadExceptOf.tryCatch]
  change (Coro.attempt _ >>= _ : Db _).run (.within c (s.log (logRow env data))) = _
  rw [Coro.run_bind, Coro.run_attempt]
  simp only [Coro.run_bind, hrun]
  cases r with
  | ok o => simp [Coro.run]
  | error e => simp [Coro.run_bind]

/-- A message on an idle connection returns and leaves the connection idle. -/
theorem processSignalMessage_run (self : Executor) (m : Delivery) (s : Tables) :
    ∃ r s', (processSignalMessage self m.env m.data).run (.idle s) = (.ok r, .idle s') ∧
      Delivers self m s r s' := by
  simp only [processSignalMessage, Coro.run_bind, isDuplicate_run, Conn.current_idle]
  by_cases hdup : Duplicate s m.data
  · exact ⟨none, s, by simp [hdup], .duplicate hdup⟩
  simp only [hdup, decide_false, Bool.false_eq_true, if_false]
  cases hparse : parseSignal m.data with
  | error e =>
    refine ⟨none, _, ?_, .unparsable hdup hparse⟩
    have hbody : (recordParseError m.env m.data e).run (.within s s) = (.ok (), .within s
        ((s.log (logRow m.env m.data)).mark m.data.signalIdOr (some e))) := by
      simp [recordParseError, Coro.run_bind, logRow]
    simp only [Coro.run_bind_ok (run_transaction_ok s hbody), Coro.run_pure]
  | ok signal =>
    simp only [Coro.run_bind, resolveFill_run, Conn.current_idle]
    obtain ⟨r, s', hhandle, hrun⟩ :=
      processParsed_run self m.env s s m.data signal (fillAt m.env s signal)
    cases r with
    | ok o => exact ⟨_, _, run_transaction_ok s hrun, .accepted hdup hparse hhandle⟩
    | error e => exact ⟨_, _, run_transaction_ok s hrun, .rejected hdup hparse hhandle⟩

/-- What `process_signal_message` returns for a message: `none` unless a handler accepted it. -/
def reply (self : Executor) (s : Tables) (m : Delivery) : Option Outcome :=
  match ((processSignalMessage self m.env m.data).run (.idle s)).1 with
  | .ok r => r
  | .error _ => none

theorem deliver_cases (self : Executor) (m : Delivery) (s : Tables) :
    Delivers self m s (reply self s m) (deliver self s m) := by
  obtain ⟨r, s', hrun, h⟩ := processSignalMessage_run self m s
  rw [deliver, reply, hrun]
  exact h

/-- The message is accepted by its handler. -/
def Accepted (self : Executor) (s : Tables) (m : Delivery) : Prop :=
  (reply self s m).isSome = true

/-- What an accepted message did. -/
theorem Accepted.handled {self : Executor} {s : Tables} {m : Delivery} {signal : Signal}
    (h : Accepted self s m) (hparse : parseSignal m.data = .ok signal) :
    ¬ Duplicate s m.data ∧ ∃ o s', deliver self s m = s'.mark m.data.signalIdOr none ∧
      Handle self m.env (s.log (logRow m.env m.data)) signal (fillAt m.env s signal) (.ok o) s' := by
  have hd := deliver_cases self m s
  unfold Accepted at h
  generalize reply self s m = r at h hd
  generalize deliver self s m = s' at hd
  cases hd with
  | accepted hnew hparse' hhandle =>
    rw [hparse] at hparse'
    cases hparse'
    exact ⟨hnew, _, _, rfl, hhandle⟩
  | _ => cases h

end PaperTrade.Worker
