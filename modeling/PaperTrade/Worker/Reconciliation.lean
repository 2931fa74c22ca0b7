import PaperTrade.Runtime.ConsumerGroup
import PaperTrade.Runtime.FaultyWrites
import PaperTrade.Worker.Redelivery

/-!
# Reconciling the stream with the database

`scripts/reconcile_signals.py` compares the entries of the signal stream with the rows of `signals`, the
pending entries and the ones that were never read; what is left over is reported as dropped in silence.

No message of a run is dropped: one that was read is recorded, was skipped as a duplicate or is still
pending. The gap has other sources, and counts exactly them (`reconcile_reported`): a skipped duplicate
has no row, retention and `--since` leave rows out, and a message whose acknowledgement failed after its
commit is both recorded and pending.
-/

namespace PaperTrade.Worker

open PaperTrade.Runtime

/-! ## The report -/

/-- What `reconcile` reads of `collect_db_stats`. -/
structure DbStats where
  signalsCommitted : ℕ
  signalsErrored : ℕ

/-- `WHERE received_at >= ?`. -/
def receivedSince (since : Option String) (r : SignalRow) : Bool :=
  match since with
  | none => true
  | some since => !(r.receivedAt < since)

/-- `collect_db_stats`. -/
def collectDbStats (signals : List SignalRow) (since : Option String) : DbStats :=
  let rows := signals.filter (receivedSince since)
  ⟨rows.countP fun r => r.processed && r.error.isNone, rows.countP fun r => r.error.isSome⟩

/-- What `reconcile` reads of `collect_stream_stats`. -/
structure StreamStats where
  xlen : ℕ
  pending : ℕ
  lag : ℕ

/-- `collect_stream_stats`. -/
def collectStreamStats (group : ConsumerGroup RawSignal) : StreamStats :=
  ⟨group.entries.length, group.pending.length, group.lag⟩

structure ReconcileResult where
  published : ℕ
  committed : ℕ
  errored : ℕ
  pending : ℕ
  lag : ℕ
  gap : ℤ
  tolerance : ℤ
  ok : Bool

/-- `reconcile`. -/
def reconcile (db : DbStats) (stream : StreamStats) (tolerance : ℤ) : ReconcileResult :=
  let gap : ℤ := stream.xlen -
    (db.signalsCommitted + db.signalsErrored + stream.pending + stream.lag)
  { published := stream.xlen
    committed := db.signalsCommitted
    errored := db.signalsErrored
    pending := stream.pending
    lag := stream.lag
    gap
    tolerance
    ok := |gap| ≤ tolerance }

/-! ## The pipeline -/

/-- What handling a message has left in the database. -/
inductive Effect
  | recorded
  | skipped
  /-- a step raised, and its transaction was rolled back -/
  | nothing
deriving DecidableEq

/-- What became of a message. -/
structure Handled where
  id : ℕ
  effect : Effect
  acknowledged : Bool

/-- The stream, the consumer and its database. -/
structure Pipeline where
  group : ConsumerGroup RawSignal
  /-- read by this process and not handled yet -/
  queue : List (RawSignal × ℕ)
  tables : Tables
  /-- what became of the messages so far -/
  handled : List Handled
  /-- the rows that retention has deleted -/
  pruned : ℕ

inductive PipelineEvent
  /-- a producer adds a message -/
  | published (data : RawSignal)
  /-- `XREADGROUP` of the loop of `run_consumer`, at most so many -/
  | read (count : ℕ)
  /-- `handle_signal_message` of the next message, which raises before its commit or comes to `XACK` -/
  | handled (env : Env) (raised : Bool) (ack : Fault)
  /-- the other tables change -/
  | elsewhere (tables : Tables)
  /-- the process starts again; `prune_signals` deletes what was received before the time -/
  | restarted (before : Option String)

namespace Pipeline

/-- Nothing is published yet. -/
def start : Pipeline := ⟨.empty, [], .empty, [], 0⟩

variable (self : Executor)

/-- `handle_signal_message`. -/
def handle (w : Pipeline) (env : Env) (raised : Bool) (ack : Fault) : Pipeline :=
  match w.queue with
  | [] => w
  | (data, id) :: queue =>
    if raised then { w with queue, handled := w.handled ++ [⟨id, .nothing, false⟩] }
    else
      let acknowledged : Bool := ack ≠ .refused
      { w with
        group := if acknowledged then w.group.ack id else w.group
        queue
        tables := deliver self w.tables ⟨data, env⟩
        handled := w.handled ++
          [⟨id, if Duplicate w.tables data then .skipped else .recorded, acknowledged⟩] }

/-- `prune_signals`. -/
def prune (w : Pipeline) (before : String) : Pipeline :=
  let kept := w.tables.signals.filter fun r => !(r.receivedAt < before)
  { w with
    tables := { w.tables with signals := kept }
    pruned := w.pruned + (w.tables.signals.length - kept.length) }

def step (w : Pipeline) : PipelineEvent → Pipeline
  | .published data => { w with group := w.group.add data }
  | .read count =>
    -- the loop reads again when it has handled what it has read
    if w.queue = [] then { w with group := w.group.readGroup count, queue := w.group.handOut count }
    else w
  | .handled env raised ack => w.handle self env raised ack
  | .elsewhere tables => { w with tables := { tables with signals := w.tables.signals } }
  | .restarted before => before.elim { w with queue := [] } { w with queue := [] }.prune

def run (w : Pipeline) (events : List PipelineEvent) : Pipeline := events.foldl (step self) w

/-- `run` of the script. -/
def report (w : Pipeline) (since : Option String) (tolerance : ℤ) : ReconcileResult :=
  reconcile (collectDbStats w.tables.signals since) (collectStreamStats w.group) tolerance

/-! ## What the gap counts -/

/-- The duplicates that were skipped and acknowledged. -/
def skipped (w : Pipeline) : ℕ :=
  w.handled.countP fun h => h.effect = .skipped ∧ h.acknowledged = true

/-- The messages that were recorded and are still pending. -/
def unacknowledged (w : Pipeline) : ℕ :=
  w.handled.countP fun h => h.effect = .recorded ∧ h.acknowledged = false

/-- The rows that were received before the time of the report. -/
def older (w : Pipeline) (since : Option String) : ℕ :=
  w.tables.signals.countP fun r => !receivedSince since r

/-- What a report says. -/
structure Reported (w : Pipeline) (since : Option String) (tolerance : ℤ) : Prop where
  gap : (w.report since tolerance).gap =
    (w.skipped + w.pruned + w.older since : ℤ) - w.unacknowledged
  /-- no message that was read is lost -/
  accounted : ∀ id < w.group.entriesRead, id ∈ w.group.pending ∨
    ∃ h ∈ w.handled, h.id = id ∧ h.effect ≠ .nothing

/-! ## The invariant -/

/-- What holds between the group, the queue, the database and the fates. -/
structure Accounted (w : Pipeline) : Prop where
  queued : ∀ e ∈ w.queue, e.2 ∈ w.group.pending
  nodup : (w.queue.map Prod.snd).Nodup
  acknowledged : w.group.acknowledged.length = w.handled.countP fun h => h.acknowledged
  recorded : w.tables.signals.length + w.pruned = w.handled.countP fun h => h.effect = .recorded
  processed : ∀ r ∈ w.tables.signals, r.processed = true
  effective : ∀ h ∈ w.handled, h.acknowledged = true → h.effect ≠ .nothing
  fates : ∀ id ∈ w.group.acknowledged, ∃ h ∈ w.handled, h.id = id ∧ h.acknowledged = true

lemma accounted_start : Accounted start where
  queued _ h := absurd h List.not_mem_nil
  nodup := List.nodup_nil
  acknowledged := rfl
  recorded := rfl
  processed _ h := absurd h List.not_mem_nil
  effective _ h := absurd h List.not_mem_nil
  fates _ h := absurd h List.not_mem_nil

variable {self} {w : Pipeline}

lemma Accounted.published (h : w.Accounted) (data : RawSignal) :
    (w.step self (.published data)).Accounted := { h with }

lemma Accounted.read (h : w.Accounted) (count : ℕ) : (w.step self (.read count)).Accounted := by
  show (if w.queue = [] then _ else w).Accounted
  split
  · have hacknowledged : ∀ id ∈ (w.group.readGroup count).acknowledged, id ∈ w.group.acknowledged := by
      intro id hid
      obtain ⟨hread, hpending⟩ := (ConsumerGroup.mem_acknowledged _).mp hid
      have hnot : id ∉ w.group.pending ∧ id ∉ w.group.next count := by
        rw [← not_or, ← List.mem_append]
        exact hpending
      refine (ConsumerGroup.mem_acknowledged _).mpr ⟨?_, hnot.1⟩
      by_contra hnew
      exact hnot.2 (w.group.mem_next.mpr ⟨not_lt.mp hnew, hread⟩)
    refine ⟨fun e he => ?_, ?_, ?_, h.recorded, h.processed, h.effective,
      fun id hid => h.fates id (hacknowledged id hid)⟩
    · refine List.mem_append_right _ ?_
      rw [← w.group.map_snd_handOut]
      exact List.mem_map.mpr ⟨e, he, rfl⟩
    · rw [w.group.map_snd_handOut]
      exact List.nodup_range'
    · rw [w.group.length_acknowledged_readGroup]
      exact h.acknowledged
  · exact h

/-- What a message leaves in `signals`. -/
lemma signals_deliver (self : Executor) (m : Delivery) {s : Tables}
    (hprocessed : ∀ r ∈ s.signals, r.processed = true) :
    (deliver self s m).signals.length =
        s.signals.length + (if Duplicate s m.data then 0 else 1) ∧
      ∀ r ∈ (deliver self s m).signals, r.processed = true := by
  by_cases hdup : Duplicate s m.data
  · rw [deliver_of_duplicate hdup, if_pos hdup]
    exact ⟨rfl, hprocessed⟩
  · obtain ⟨s₁, error, hsame, heq⟩ := (deliver_cases self m s).exists_mark hdup
    have hsignals : (deliver self s m).signals =
        (s.signals ++ [logRow m.env m.data]).map (markRow m.data.signalIdOr error) := by
      rw [heq, Tables.mark, hsame.signals]
      rfl
    rw [hsignals, if_neg hdup]
    refine ⟨by simp, fun r hr => ?_⟩
    obtain ⟨r₀, hr₀, rfl⟩ := List.mem_map.mp hr
    unfold markRow
    split
    · rfl
    · rename_i hother
      rcases List.mem_append.mp hr₀ with hold | hnew
      · exact hprocessed r₀ hold
      · obtain rfl := List.mem_singleton.mp hnew
        exact absurd rfl hother

lemma Accounted.handled (h : w.Accounted) (env : Env) (raised : Bool) (ack : Fault) :
    (w.step self (.handled env raised ack)).Accounted := by
  show (w.handle self env raised ack).Accounted
  unfold handle
  split
  · exact h
  rename_i data id queue hqueue
  have hqueued := h.queued
  have hnodup := h.nodup
  rw [hqueue] at hqueued hnodup
  rw [List.map_cons, List.nodup_cons] at hnodup
  obtain ⟨hid, hrest⟩ := List.forall_mem_cons.mp hqueued
  split
  · -- the message stays pending, and nothing else has happened
    refine ⟨hrest, hnodup.2, ?_, ?_, h.processed, ?_, ?_⟩
    · rw [List.countP_append, h.acknowledged]
      rfl
    · rw [List.countP_append, h.recorded]
      rfl
    · intro f hf hacknowledged
      rcases List.mem_append.mp hf with hf | hf
      · exact h.effective f hf hacknowledged
      · obtain rfl := List.mem_singleton.mp hf
        cases hacknowledged
    · intro i hi
      obtain ⟨f, hf, hfate⟩ := h.fates i hi
      exact ⟨f, List.mem_append_left _ hf, hfate⟩
  · obtain ⟨hlength, hprocessed⟩ := signals_deliver self ⟨data, env⟩ h.processed
    have heffective : ∀ f ∈ w.handled ++ [(⟨id, if Duplicate w.tables data then .skipped else .recorded,
        decide (ack ≠ .refused)⟩ : Handled)], f.acknowledged = true → f.effect ≠ .nothing := by
      intro f hf hacknowledged
      rcases List.mem_append.mp hf with hf | hf
      · exact h.effective f hf hacknowledged
      · obtain rfl := List.mem_singleton.mp hf
        dsimp only
        split <;> decide
    have hrecorded : (deliver self w.tables ⟨data, env⟩).signals.length + w.pruned =
        (w.handled ++ [(⟨id, if Duplicate w.tables data then .skipped else .recorded,
          decide (ack ≠ .refused)⟩ : Handled)]).countP fun f => f.effect = .recorded := by
      rw [List.countP_append, ← h.recorded, hlength, List.countP_singleton]
      by_cases hdup : Duplicate w.tables data
      · simp [hdup]
      · simp [hdup]
        omega
    by_cases hack : ack = .refused
    · -- the acknowledgement has failed
      subst hack
      refine ⟨hrest, hnodup.2, ?_, hrecorded, hprocessed, heffective, ?_⟩
      · rw [List.countP_append, ← h.acknowledged]
        rfl
      · intro i hi
        obtain ⟨f, hf, hfate⟩ := h.fates i hi
        exact ⟨f, List.mem_append_left _ hf, hfate⟩
    · have hdone : decide (ack ≠ .refused) = true := decide_eq_true hack
      simp only [hdone] at heffective hrecorded ⊢
      refine ⟨fun e he => ?_, hnodup.2, ?_, hrecorded, hprocessed, heffective, fun i hi => ?_⟩
      · have hne : e.2 ≠ id := by
          rintro rfl
          exact hnodup.1 (List.mem_map.mpr ⟨e, he, rfl⟩)
        exact (List.mem_erase_of_ne hne).mpr (hrest e he)
      · rw [List.countP_append, ← h.acknowledged]
        exact w.group.length_acknowledged_ack hid
      · obtain ⟨hread, hpending⟩ := (ConsumerGroup.mem_acknowledged _).mp hi
        by_cases hown : i = id
        · exact ⟨_, List.mem_append_right _ (List.mem_singleton_self _), hown.symm, rfl⟩
        · have hold : i ∉ w.group.pending := fun hmem =>
            hpending ((List.mem_erase_of_ne hown).mpr hmem)
          obtain ⟨f, hf, hfate⟩ := h.fates i ((ConsumerGroup.mem_acknowledged _).mpr ⟨hread, hold⟩)
          exact ⟨f, List.mem_append_left _ hf, hfate⟩

lemma Accounted.elsewhere (h : w.Accounted) (tables : Tables) :
    (w.step self (.elsewhere tables)).Accounted := { h with }

lemma Accounted.restarted (h : w.Accounted) (before : Option String) :
    (w.step self (.restarted before)).Accounted := by
  have hstopped : ({ w with queue := [] } : Pipeline).Accounted :=
    { h with queued := fun _ he => absurd he List.not_mem_nil, nodup := List.nodup_nil }
  cases before with
  | none => exact hstopped
  | some before =>
    refine { hstopped with recorded := ?_, processed := fun r hr => ?_ }
    · have hle := List.length_filter_le (fun r : SignalRow => !decide (r.receivedAt < before))
        w.tables.signals
      have hrecorded := h.recorded
      show (w.tables.signals.filter _).length + (w.pruned + (w.tables.signals.length -
        (w.tables.signals.filter _).length)) = w.handled.countP _
      omega
    · exact h.processed r (List.mem_filter.mp hr).1

lemma Accounted.step (h : w.Accounted) (e : PipelineEvent) : (w.step self e).Accounted := by
  cases e with
  | published data => exact h.published data
  | read count => exact h.read count
  | handled env raised ack => exact h.handled env raised ack
  | elsewhere tables => exact h.elsewhere tables
  | restarted before => exact h.restarted before

theorem Accounted.run (h : w.Accounted) (events : List PipelineEvent) :
    (w.run self events).Accounted := by
  induction events generalizing w with
  | nil => exact h
  | cons e events ih => exact ih (h.step e)

/-! ## The gap -/

/-- Every processed row is committed or errored. -/
lemma committed_add_errored {signals : List SignalRow} (since : Option String)
    (h : ∀ r ∈ signals, r.processed = true) :
    (collectDbStats signals since).signalsCommitted + (collectDbStats signals since).signalsErrored +
      signals.countP (fun r => !receivedSince since r) = signals.length := by
  induction signals with
  | nil => rfl
  | cons r signals ih =>
    obtain ⟨hr, hsignals⟩ := List.forall_mem_cons.mp h
    have ih := ih hsignals
    simp only [collectDbStats] at ih ⊢
    by_cases hsince : receivedSince since r = true
    · cases herror : r.error with
      | none => simp [hsince, hr, herror]; omega
      | some e => simp [hsince, hr, herror]; omega
    · simp [hsince]; omega

lemma countP_acknowledged (handled : List Handled)
    (h : ∀ f ∈ handled, f.acknowledged = true → f.effect ≠ .nothing) :
    handled.countP (fun f => f.acknowledged) +
        handled.countP (fun f => f.effect = .recorded ∧ f.acknowledged = false) =
      handled.countP (fun f => f.effect = .skipped ∧ f.acknowledged = true) +
        handled.countP (fun f => f.effect = .recorded) := by
  induction handled with
  | nil => rfl
  | cons f handled ih =>
    obtain ⟨hf, hhandled⟩ := List.forall_mem_cons.mp h
    have ih := ih hhandled
    simp only [List.countP_cons]
    cases hack : f.acknowledged <;> cases heffect : f.effect <;> simp [heffect, hack] at hf ih ⊢ <;>
      omega

lemma Accounted.reported (h : w.Accounted) (since : Option String) (tolerance : ℤ) :
    w.Reported since tolerance where
  gap := by
    have hread := w.group.length_pending_add_acknowledged
    have hle := w.group.read_le
    have hrows := committed_add_errored since h.processed
    have hfates := countP_acknowledged w.handled h.effective
    have hacknowledged := h.acknowledged
    have hrecorded := h.recorded
    have hlag : w.group.lag = w.group.entries.length - w.group.entriesRead := rfl
    simp only [report, reconcile, collectStreamStats, skipped, unacknowledged, older]
    omega
  accounted id hid := by
    by_cases hpending : id ∈ w.group.pending
    · exact .inl hpending
    · obtain ⟨f, hf, hown, hacknowledged⟩ :=
        h.fates id ((ConsumerGroup.mem_acknowledged _).mpr ⟨hid, hpending⟩)
      exact .inr ⟨f, hf, hown, h.effective f hf hacknowledged⟩

end Pipeline

/-- After every run the gap is the number of duplicates that were skipped and of rows that retention or
the report leaves out, less the messages that are recorded and still pending; and no message that was
read is lost. -/
theorem reconcile_reported (self : Executor) (events : List PipelineEvent) (since : Option String)
    (tolerance : ℤ) : (Pipeline.start.run self events).Reported since tolerance :=
  (Pipeline.accounted_start.run events).reported since tolerance

end PaperTrade.Worker
