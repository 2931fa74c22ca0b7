import PaperTrade.Runtime.Weights
import PaperTrade.Worker.Main

/-!
# The counters of the consumer

`handle_signal_message` counts each message when it arrives and once more where its fate is decided. Here
the database, the executor and Redis only answer or raise (`Answers`), so that every await is a place
where a message can fail; `Main` and `Database` say what they do when they answer.

A message that fails after its fate has been counted is counted again as left pending. `Settled` excludes
this, and `handleAll_reconciles_iff` shows that nothing else unbalances the counters.

The fill price is resolved inside a `try`, the position snapshot and the order book are published inside
one each, and none of them counts anything; they are left out.
-/

namespace PaperTrade.Worker

open PaperTrade.Runtime

/-! ## The counters -/

/-- `WorkerMetrics`. -/
structure WorkerMetrics where
  receivedTotal : ℕ := 0
  duplicateSkippedTotal : ℕ := 0
  parseErrorTotal : ℕ := 0
  processErrorTotal : ℕ := 0
  leftPendingTotal : ℕ := 0
  xackTotal : ℕ := 0
  committedByType : Dict String ℕ := .empty
  parseErrorByAlpha : Dict String ℕ := .empty
  processErrorByAlpha : Dict String ℕ := .empty
  leftPendingByAlpha : Dict String ℕ := .empty

/-- `d[key] = d.get(key, 0) + 1`. -/
def increment (d : Dict String ℕ) (key : String) : Dict String ℕ := d.set key ((d.get? key).getD 0 + 1)

namespace WorkerMetrics

variable (m : WorkerMetrics)

/-- `inc_committed`. -/
def incCommitted (signalType : String) : WorkerMetrics :=
  { m with committedByType := increment m.committedByType signalType }

/-- `inc_parse_error`. -/
def incParseError (alphaId : String) : WorkerMetrics :=
  { m with
    parseErrorTotal := m.parseErrorTotal + 1
    parseErrorByAlpha := increment m.parseErrorByAlpha alphaId }

/-- `inc_process_error`. -/
def incProcessError (alphaId : String) : WorkerMetrics :=
  { m with
    processErrorTotal := m.processErrorTotal + 1
    processErrorByAlpha := increment m.processErrorByAlpha alphaId }

/-- `inc_left_pending`. -/
def incLeftPending (alphaId : String) : WorkerMetrics :=
  { m with
    leftPendingTotal := m.leftPendingTotal + 1
    leftPendingByAlpha := increment m.leftPendingByAlpha alphaId }

/-- `inc("received_total")`. -/
def incReceived : WorkerMetrics := { m with receivedTotal := m.receivedTotal + 1 }

/-- `inc("duplicate_skipped_total")`. -/
def incDuplicateSkipped : WorkerMetrics :=
  { m with duplicateSkippedTotal := m.duplicateSkippedTotal + 1 }

/-- `inc("xack_total")`. -/
def incXack : WorkerMetrics := { m with xackTotal := m.xackTotal + 1 }

/-- `committed_total`. -/
def committedTotal : ℕ := (m.committedByType.rows.map Prod.snd).sum

/-- The messages in the five buckets. -/
def accounted : ℕ :=
  m.duplicateSkippedTotal + m.parseErrorTotal + m.processErrorTotal + m.committedTotal +
    m.leftPendingTotal

/-- `reconciles`. -/
def reconciles : Bool := m.receivedTotal = m.accounted

end WorkerMetrics

/-! ## The consumer -/

/-- What the awaited steps of one message answer, or raise. -/
structure Answers (ε : Type) where
  /-- `db.signal_processed` -/
  signalProcessed : Except ε Bool := .ok false
  /-- `BEGIN IMMEDIATE` -/
  begin : Except ε Unit := .ok ()
  logSignal : Except ε Unit := .ok ()
  /-- `executor.process_open` and its siblings -/
  process : Except ε Unit := .ok ()
  /-- `db.mark_signal_processed(signal_id)` -/
  markProcessed : Except ε Unit := .ok ()
  /-- `db.mark_signal_processed(signal_id, error=…)` -/
  markFailed : Except ε Unit := .ok ()
  commit : Except ε Unit := .ok ()
  rollback : Except ε Unit := .ok ()
  xack : Except ε Unit := .ok ()

/-- The consumer as far as it counts. -/
abbrev Metered (ε : Type) := Coro WorkerMetrics ε

variable {ε : Type}

/-- A call of a method of the counters. -/
def count (f : WorkerMetrics → WorkerMetrics) : Metered ε Unit := .sync f fun _ => .done (.ok ())

/-- An awaited step. -/
def awaited {α : Type} (answer : Except ε α) : Metered ε α := .await id fun _ => .done answer

namespace Answers

variable (a : Answers ε)

/-- `async with db.transaction()`. -/
def transaction {α : Type} (body : Metered ε α) : Metered ε α :=
  tryCatch
    (do
      awaited a.begin
      let result ← body
      awaited a.commit
      pure result)
    (fun e => do
      awaited a.rollback
      throw e)

/-- The duplicate check. -/
def isDuplicate (data : RawSignal) : Metered ε Bool :=
  if data.signalIdOr ≠ "unknown" then awaited a.signalProcessed else pure false

/-- `process_signal_message`: the transaction of a parsed signal. -/
def processParsed (data : RawSignal) : Metered ε Unit :=
  a.transaction do
    awaited a.logSignal
    tryCatch
      (do
        awaited a.process
        awaited a.markProcessed
        count fun m => m.incCommitted data.typeOr)
      (fun _ => do
        count fun m => m.incProcessError data.alphaIdOr
        awaited a.markFailed)

/-- `process_signal_message`. -/
def processSignalMessage (data : RawSignal) : Metered ε Unit := do
  count WorkerMetrics.incReceived
  if ← a.isDuplicate data then count WorkerMetrics.incDuplicateSkipped
  else
    match parseSignal data with
    | .error _ => do
      count fun m => m.incParseError data.alphaIdOr
      a.transaction do
        awaited a.logSignal
        awaited a.markFailed
    | .ok _ => a.processParsed data

/-- `handle_signal_message`. -/
def handleSignalMessage (data : RawSignal) : Metered ε Unit :=
  tryCatch
    (do
      a.processSignalMessage data
      awaited a.xack
      count WorkerMetrics.incXack)
    (fun _ => count fun m => m.incLeftPending data.alphaIdOr)

end Answers

/-- The counters after one message. -/
def meter (m : WorkerMetrics) (message : RawSignal × Answers ε) : WorkerMetrics :=
  ((message.2.handleSignalMessage message.1).run m).2

/-- The counters after a list of messages. -/
def meterAll (m : WorkerMetrics) (messages : List (RawSignal × Answers ε)) : WorkerMetrics :=
  messages.foldl meter m

/-! ## Messages that are counted once -/

namespace Answers

variable (a : Answers ε)

/-- The body of a transaction is reached. -/
def Begins : Prop := a.begin.isOk = true ∧ a.logSignal.isOk = true

instance : Decidable a.Begins := inferInstanceAs (Decidable (_ ∧ _))

/-- What follows a count does not raise. -/
def Ends : Prop := a.commit.isOk = true ∧ a.xack.isOk = true

/-- No step raises once the fate of the message has been counted. -/
def Settled (data : RawSignal) : Prop :=
  match (if data.signalIdOr ≠ "unknown" then a.signalProcessed else .ok false) with
  | .error _ => True
  | .ok true => a.xack.isOk = true
  | .ok false =>
    match parseSignal data with
    | .error _ => a.Begins ∧ a.markFailed.isOk = true ∧ a.Ends
    | .ok _ => a.Begins →
        (a.process.isOk = true ∧ a.markProcessed.isOk = true ∨ a.markFailed.isOk = true) ∧ a.Ends

end Answers

/-! ## What the counters do -/

@[simp] lemma run_count (f : WorkerMetrics → WorkerMetrics) (m : WorkerMetrics) :
    (count (ε := ε) f).run m = (.ok (), f m) := rfl

@[simp] lemma run_awaited {α : Type} (answer : Except ε α) (m : WorkerMetrics) :
    (awaited answer).run m = (answer, m) := rfl

lemma run_tryCatch {α : Type} (p : Metered ε α) (handler : ε → Metered ε α) (m : WorkerMetrics) :
    (tryCatch p handler).run m = match p.run m with
      | (.ok a, m') => (.ok a, m')
      | (.error e, m') => (handler e).run m' := by
  change (p.attempt.bind _).run m = _
  rw [show ∀ k : Except ε α → Metered ε α, (p.attempt.bind k).run m = (p.attempt >>= k).run m
    from fun _ => rfl, Coro.run_bind, Coro.run_attempt]
  cases p.run m with
  | mk r m' => cases r <;> rfl

lemma committedTotal_incCommitted (m : WorkerMetrics) (signalType : String) :
    (m.incCommitted signalType).committedTotal = m.committedTotal + 1 := by
  have hsum : ∀ d : Dict String ℕ, (d.rows.map Prod.snd).sum = d.weights.sum fun _ v => v :=
    fun d => Dict.sum_items d (fun _ v => v) fun _ => rfl
  show ((increment m.committedByType signalType).rows.map Prod.snd).sum = _
  unfold WorkerMetrics.committedTotal increment
  rw [hsum, hsum, Dict.weights_set_add, Finsupp.sum_add_index' (fun _ => rfl) (fun _ _ _ => rfl),
    Finsupp.sum_single_index rfl]

namespace WorkerMetrics

variable (m : WorkerMetrics)

@[simp] lemma receivedTotal_incCommitted (t : String) :
    (m.incCommitted t).receivedTotal = m.receivedTotal := rfl
@[simp] lemma receivedTotal_incParseError (a : String) :
    (m.incParseError a).receivedTotal = m.receivedTotal := rfl
@[simp] lemma receivedTotal_incProcessError (a : String) :
    (m.incProcessError a).receivedTotal = m.receivedTotal := rfl
@[simp] lemma receivedTotal_incLeftPending (a : String) :
    (m.incLeftPending a).receivedTotal = m.receivedTotal := rfl
@[simp] lemma receivedTotal_incDuplicateSkipped :
    m.incDuplicateSkipped.receivedTotal = m.receivedTotal := rfl
@[simp] lemma receivedTotal_incXack : m.incXack.receivedTotal = m.receivedTotal := rfl
@[simp] lemma receivedTotal_incReceived : m.incReceived.receivedTotal = m.receivedTotal + 1 := rfl

@[simp] lemma accounted_incCommitted (t : String) :
    (m.incCommitted t).accounted = m.accounted + 1 := by
  have h := committedTotal_incCommitted m t
  show m.duplicateSkippedTotal + m.parseErrorTotal + m.processErrorTotal +
    (m.incCommitted t).committedTotal + m.leftPendingTotal = _
  unfold accounted
  omega

@[simp] lemma accounted_incParseError (a : String) :
    (m.incParseError a).accounted = m.accounted + 1 := by
  show m.duplicateSkippedTotal + (m.parseErrorTotal + 1) + m.processErrorTotal + m.committedTotal +
    m.leftPendingTotal = _
  unfold accounted
  omega

@[simp] lemma accounted_incProcessError (a : String) :
    (m.incProcessError a).accounted = m.accounted + 1 := by
  show m.duplicateSkippedTotal + m.parseErrorTotal + (m.processErrorTotal + 1) + m.committedTotal +
    m.leftPendingTotal = _
  unfold accounted
  omega

@[simp] lemma accounted_incLeftPending (a : String) :
    (m.incLeftPending a).accounted = m.accounted + 1 := by
  show m.duplicateSkippedTotal + m.parseErrorTotal + m.processErrorTotal + m.committedTotal +
    (m.leftPendingTotal + 1) = _
  unfold accounted
  omega

@[simp] lemma accounted_incDuplicateSkipped : m.incDuplicateSkipped.accounted = m.accounted + 1 := by
  show m.duplicateSkippedTotal + 1 + m.parseErrorTotal + m.processErrorTotal + m.committedTotal +
    m.leftPendingTotal = _
  unfold accounted
  omega

@[simp] lemma accounted_incXack : m.incXack.accounted = m.accounted := rfl
@[simp] lemma accounted_incReceived : m.incReceived.accounted = m.accounted := rfl

end WorkerMetrics

/-! ## One message -/

namespace Answers

variable (a : Answers ε) (data : RawSignal) (m : WorkerMetrics)

/-- A transaction keeps what its body counts, and returns when nothing raises. -/
lemma run_transaction {α : Type} (body : Metered ε α) :
    ((a.transaction body).run m).2 = (if a.begin.isOk then (body.run m).2 else m) ∧
      ((a.transaction body).run m).1.isOk =
        (a.begin.isOk && (body.run m).1.isOk && a.commit.isOk) := by
  -- a rollback that raises raises another exception
  have hraise : ∀ (m' : WorkerMetrics) (e : ε),
      ((awaited a.rollback >>= fun _ => throw e : Metered ε α).run m').2 = m' ∧
        ((awaited a.rollback >>= fun _ => throw e : Metered ε α).run m').1.isOk = false := by
    intro m' e
    rw [Coro.run_bind, run_awaited]
    cases a.rollback <;> exact ⟨rfl, rfl⟩
  unfold transaction
  rw [run_tryCatch, Coro.run_bind, run_awaited]
  cases a.begin with
  | error e => exact hraise m e
  | ok _ =>
    dsimp only
    rw [Coro.run_bind]
    cases body.run m with
    | mk r m' =>
    cases r with
    | error e => exact hraise m' e
    | ok result =>
      dsimp only
      rw [Coro.run_bind, run_awaited]
      cases a.commit with
      | error e => exact hraise m' e
      | ok _ => exact ⟨rfl, rfl⟩

/-- The body of the transaction of a parsed signal. -/
lemma run_processParsed :
    ((a.processParsed data).run m).2.receivedTotal = m.receivedTotal ∧
      (a.Begins → ((a.processParsed data).run m).2.accounted = m.accounted + 1) ∧
      (¬ a.Begins → ((a.processParsed data).run m).2.accounted = m.accounted ∧
        ((a.processParsed data).run m).1.isOk = false) ∧
      (a.Begins → (((a.processParsed data).run m).1.isOk = true ↔
        (a.process.isOk = true ∧ a.markProcessed.isOk = true ∨ a.markFailed.isOk = true) ∧
          a.commit.isOk = true)) := by
  unfold processParsed Begins
  rw [(a.run_transaction m _).1, (a.run_transaction m _).2]
  cases hbegin : a.begin with
  | error e => simp [Except.isOk, Except.toBool]
  | ok _ =>
  cases hlog : a.logSignal with
  | error e => simp [Except.isOk, Except.toBool, Coro.run_bind]
  | ok _ =>
  have hlogged : ∀ body : Metered ε Unit,
      ((awaited (Except.ok () : Except ε Unit) >>= fun _ => body).run m) = body.run m := by
    intro body
    rfl
  simp only [hlogged, run_tryCatch]
  cases hprocess : a.process with
  | error e => cases a.markFailed <;> simp [Except.isOk, Except.toBool, Coro.run_bind]
  | ok _ =>
    cases a.markProcessed with
    | error e => cases a.markFailed <;> simp [Except.isOk, Except.toBool, Coro.run_bind]
    | ok _ => simp [Except.isOk, Except.toBool, Coro.run_bind]

/-- The transaction of a message that does not parse counts nothing. -/
lemma run_recordParseError :
    ((a.transaction do awaited a.logSignal; awaited a.markFailed).run m).2 = m ∧
      (((a.transaction do awaited a.logSignal; awaited a.markFailed).run m).1.isOk = true ↔
        a.Begins ∧ a.markFailed.isOk = true ∧ a.commit.isOk = true) := by
  unfold Begins
  rw [(a.run_transaction m _).1, (a.run_transaction m _).2]
  cases a.begin with
  | error e => simp [Except.isOk, Except.toBool]
  | ok _ =>
  cases a.logSignal with
  | error e => simp [Except.isOk, Except.toBool, Coro.run_bind]
  | ok _ => cases a.markFailed <;> simp [Except.isOk, Except.toBool, Coro.run_bind]

/-- A message is received once. Its fate is counted or it raises, and `Settled` says that it does not
do both, nor fail to be acknowledged. -/
lemma run_processSignalMessage :
    ((a.processSignalMessage data).run m).2.receivedTotal = m.receivedTotal + 1 ∧
      ∃ counted : Bool,
        ((a.processSignalMessage data).run m).2.accounted = m.accounted + counted.toNat ∧
        (counted = false → ((a.processSignalMessage data).run m).1.isOk = false) ∧
        (a.Settled data ↔ counted = false ∨
          ((a.processSignalMessage data).run m).1.isOk = true ∧ a.xack.isOk = true) := by
  have hrun : (a.processSignalMessage data).run m = (do
      if ← a.isDuplicate data then count WorkerMetrics.incDuplicateSkipped
      else
        match parseSignal data with
        | .error _ => do
          count fun m => m.incParseError data.alphaIdOr
          a.transaction do
            awaited a.logSignal
            awaited a.markFailed
        | .ok _ => a.processParsed data : Metered ε Unit).run m.incReceived := rfl
  have hlookup : (a.isDuplicate data).run m.incReceived =
      (if data.signalIdOr ≠ "unknown" then a.signalProcessed else .ok false, m.incReceived) := by
    unfold isDuplicate
    split <;> rfl
  unfold Settled
  rw [hrun, Coro.run_bind, hlookup]
  generalize (if data.signalIdOr ≠ "unknown" then a.signalProcessed else .ok false) = lookup
  cases lookup with
  | error e => exact ⟨rfl, false, rfl, fun _ => rfl, iff_of_true trivial (.inl rfl)⟩
  | ok duplicate =>
  cases duplicate with
  | true =>
    refine ⟨rfl, true, m.incReceived.accounted_incDuplicateSkipped, fun h => Bool.noConfusion h, ?_⟩
    simp [Except.isOk, Except.toBool]
  | false =>
  dsimp only
  rw [if_neg Bool.false_ne_true]
  cases parseSignal data with
  | error e =>
    obtain ⟨hstate, hok⟩ := a.run_recordParseError (m.incReceived.incParseError data.alphaIdOr)
    dsimp only
    rw [Coro.run_bind, run_count]
    dsimp only
    rw [hstate, hok]
    refine ⟨rfl, true, m.incReceived.accounted_incParseError _, fun h => Bool.noConfusion h, ?_⟩
    unfold Ends
    tauto
  | ok signal =>
    obtain ⟨hreceived, hbegun, hlost, hok⟩ := a.run_processParsed data m.incReceived
    dsimp only
    refine ⟨hreceived, decide a.Begins, ?_, ?_, ?_⟩
    · by_cases hbegins : a.Begins
      · rw [hbegun hbegins, decide_eq_true hbegins]
        rfl
      · rw [(hlost hbegins).1, decide_eq_false hbegins]
        rfl
    · intro hbegins
      exact (hlost (of_decide_eq_false hbegins)).2
    · unfold Ends
      by_cases hbegins : a.Begins
      · rw [hok hbegins, decide_eq_true hbegins]
        tauto
      · rw [decide_eq_false hbegins]
        tauto

/-- What is left of a message: the acknowledgement, or the count as left pending. -/
lemma run_handleSignalMessage :
    ((a.handleSignalMessage data).run m).2.receivedTotal =
      ((a.processSignalMessage data).run m).2.receivedTotal ∧
    ((a.handleSignalMessage data).run m).2.accounted =
      ((a.processSignalMessage data).run m).2.accounted +
        (!(((a.processSignalMessage data).run m).1.isOk && a.xack.isOk)).toNat := by
  unfold handleSignalMessage
  rw [run_tryCatch, Coro.run_bind]
  cases (a.processSignalMessage data).run m with
  | mk r m' =>
  cases r with
  | error e => exact ⟨rfl, m'.accounted_incLeftPending _⟩
  | ok _ =>
    dsimp only
    rw [Coro.run_bind, run_awaited]
    cases a.xack with
    | error e => exact ⟨rfl, m'.accounted_incLeftPending _⟩
    | ok _ => exact ⟨rfl, rfl⟩

end Answers

/-- Every message is received once, and its fate is counted once or, where a step raises after the
count, twice. -/
lemma meter_spec (m : WorkerMetrics) (message : RawSignal × Answers ε) :
    (meter m message).receivedTotal = m.receivedTotal + 1 ∧
      (message.2.Settled message.1 → (meter m message).accounted = m.accounted + 1) ∧
      (¬ message.2.Settled message.1 → (meter m message).accounted = m.accounted + 2) := by
  obtain ⟨data, a⟩ := message
  obtain ⟨hreceived, counted, haccounted, hraised, hsettled⟩ := a.run_processSignalMessage data m
  obtain ⟨hreceived', haccounted'⟩ := a.run_handleSignalMessage data m
  unfold meter
  rw [hreceived', haccounted', hreceived, haccounted]
  refine ⟨rfl, ?_, ?_⟩
  · intro h
    rcases hsettled.mp h with hcounted | ⟨hok, hxack⟩
    · rw [hraised hcounted, hcounted]
      rfl
    · have hcounted : counted = true := by
        by_contra hnot
        rw [hraised (Bool.eq_false_iff.mpr hnot)] at hok
        cases hok
      rw [hok, hxack, hcounted]
      rfl
  · intro h
    rw [hsettled, not_or, Bool.not_eq_false] at h
    have hlost : (((a.processSignalMessage data).run m).1.isOk && a.xack.isOk) = false := by
      rw [Bool.eq_false_iff, ne_eq, Bool.and_eq_true]
      exact h.2
    rw [hlost, h.1]
    rfl

/-! ## A run -/

/-- The counters never fall behind, and keep the balance exactly as long as every message is settled. -/
lemma meterAll_spec (messages : List (RawSignal × Answers ε)) (m : WorkerMetrics)
    (hstart : m.receivedTotal ≤ m.accounted) :
    (meterAll m messages).receivedTotal ≤ (meterAll m messages).accounted ∧
      ((meterAll m messages).receivedTotal = (meterAll m messages).accounted ↔
        m.receivedTotal = m.accounted ∧ ∀ message ∈ messages, message.2.Settled message.1) := by
  induction messages generalizing m with
  | nil => exact ⟨hstart, by simp [meterAll]⟩
  | cons message messages ih =>
    obtain ⟨hreceived, honce, htwice⟩ := meter_spec m message
    change (meterAll (meter m message) messages).receivedTotal ≤ _ ∧ _
    by_cases hsettled : message.2.Settled message.1
    · have haccounted := honce hsettled
      obtain ⟨hle, heq⟩ := ih (meter m message) (by omega)
      refine ⟨hle, heq.trans ?_⟩
      rw [List.forall_mem_cons, hreceived, haccounted]
      constructor
      · intro h
        exact ⟨by omega, hsettled, h.2⟩
      · intro h
        exact ⟨by omega, h.2.2⟩
    · have haccounted := htwice hsettled
      obtain ⟨hle, heq⟩ := ih (meter m message) (by omega)
      refine ⟨hle, heq.trans ?_⟩
      rw [List.forall_mem_cons, hreceived, haccounted]
      constructor
      · intro h
        omega
      · intro h
        exact absurd h.2.1 hsettled

/-- The counters of a process reconcile after every message exactly when no step raises once the fate of
its message has been counted. -/
theorem meterAll_reconciles_iff (messages : List (RawSignal × Answers ε)) :
    (∀ n, (meterAll {} (messages.take n)).reconciles = true) ↔
      ∀ message ∈ messages, message.2.Settled message.1 := by
  have hrun : ∀ messages : List (RawSignal × Answers ε), (meterAll {} messages).reconciles = true ↔
      ∀ message ∈ messages, message.2.Settled message.1 := by
    intro messages
    unfold WorkerMetrics.reconciles
    rw [decide_eq_true_iff, (meterAll_spec messages {} (le_refl 0)).2]
    exact and_iff_right rfl
  constructor
  · intro h
    have hall := h messages.length
    rw [List.take_length] at hall
    exact (hrun messages).mp hall
  · intro h n
    exact (hrun _).mpr fun message hmem => h message (List.mem_of_mem_take hmem)

/-- A message that registers no columns. -/
def registerNone : RawSignal where
  type := some "REGISTER_COLUMNS"
  alphaId := some "a"
  signalId := some "s"
  timestamp := some "2024-01-01T00:00:00+00:00"
  columns := some (.chars "[]")

/-- A message that is committed but not acknowledged is counted as committed and as left pending. -/
theorem lost_acknowledgement_counted_twice :
    ¬ ∀ (messages : List (RawSignal × Answers Unit)) (n : ℕ),
      (meterAll {} (messages.take n)).reconciles = true := by
  intro h
  have hlost := h [(registerNone, { xack := .error () })] 1
  have hcounted : (meterAll {} (List.take 1
      [(registerNone, ({ xack := .error () } : Answers Unit))])).reconciles = false := by
    decide +kernel
  rw [hcounted] at hlost
  cases hlost

end PaperTrade.Worker
