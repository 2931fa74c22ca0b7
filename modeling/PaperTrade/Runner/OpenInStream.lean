import PaperTrade.Runner.Dedup

/-!
# What is open according to the stream

For a reader of the stream a position is open from its OPEN to the next full CLOSE of its id: `note` is
what one message does to the ids that are open, and `openIds` reads a whole stream.

A dispatch ends in one of five ways (`Outcome`), and two of them append the message. `outcomes` are those
of a sequence of dispatches.
-/

namespace PaperTrade.Runner

open PaperTrade.Runtime Dispatcher

/-! ## Open ids -/

/-- What a message does to the ids that are open. A CLOSE with a quantity is a partial one. -/
def note (ids : List Text) (m : Message) : List Text :=
  if m.get? "type" = some (.chars "OPEN") then (m.get? "position_id").toList ++ ids
  else if m.get? "type" = some (.chars "CLOSE") ∧ m.get? "qty" = none then
    ids.filter fun pid => some pid ≠ m.get? "position_id"
  else ids

/-- The ids that are open after the messages. -/
def openIds (loaded : List Text) (messages : List Message) : List Text := messages.foldl note loaded

/-- Two lists have the same ids. -/
def SameIds (ids ids' : List Text) : Prop := ∀ pid, pid ∈ ids ↔ pid ∈ ids'

/-- What the message of a call does to the ids that are open. -/
def Call.note (c : Call) (ids : List Text) : List Text := Runner.note ids (c.payload "" "")

lemma note_payload (ids : List Text) (c : Call) (now id : String) :
    note ids (c.payload now id) = c.note ids := by
  have hkey : ∀ key, key ≠ "signal_id" → key ≠ "timestamp" →
      (c.payload now id).get? key = (c.payload "" "").get? key :=
    fun key hid htime => get?_payload c now id hid htime
  unfold Call.note note
  rw [hkey "type" (by decide) (by decide), hkey "position_id" (by decide) (by decide),
    hkey "qty" (by decide) (by decide)]

lemma get?_foldl_addField_of_mem {fields : Entries} (hnodup : (fields.map Prod.fst).Nodup)
    {key : String} {v : Json} (hmem : (key, v) ∈ fields) (hv : v ≠ .null) (m : Message) :
    (fields.foldl addField m).get? key = some (pyStr v) := by
  induction fields generalizing m with
  | nil => exact absurd hmem List.not_mem_nil
  | cons p fields ih =>
    rw [List.map_cons, List.nodup_cons] at hnodup
    rw [List.foldl_cons]
    rcases List.mem_cons.mp hmem with rfl | hmem
    · have hother : ∀ q ∈ fields, q.1 ≠ key :=
        fun q hq heq => hnodup.1 (List.mem_map.mpr ⟨q, hq, heq⟩)
      have hadd : addField m (key, v) = m.set key (pyStr v) := by
        cases v with
        | null => exact absurd rfl hv
        | _ => rfl
      rw [get?_foldl_addField hother, hadd, Dict.get?_set, if_pos rfl]
    · exact ih hnodup.2 hmem _

/-- What the fields of a call have to be for its message to say what the call says. -/
structure Call.Plain (c : Call) (pid : String) : Prop where
  nodup : (c.fields.map Prod.fst).Nodup
  untyped : ∀ p ∈ c.fields, p.1 ≠ "type"
  positionId : ("position_id", .str pid) ∈ c.fields

namespace Call.Plain

variable {c : Call} {pid : String}

lemma get?_type (h : c.Plain pid) : (c.payload "" "").get? "type" = some (.chars c.type) := by
  rw [payload, get?_foldl_addField fun p hp => h.untyped p (List.mem_filter.mp hp).1, Dict.get?_set,
    if_neg (by decide), Dict.get?_set, if_neg (by decide), Dict.get?_set, if_neg (by decide),
    Dict.get?_set, if_pos rfl]

lemma get?_positionId (h : c.Plain pid) :
    (c.payload "" "").get? "position_id" = some (.chars pid) := by
  have hsub := (List.filter_sublist (p := fun p : String × Json => decide (p.1 ≠ "timestamp"))
    (l := c.fields)).map Prod.fst
  have hmem : ("position_id", Json.str pid) ∈ c.fields.filter fun p => p.1 ≠ "timestamp" :=
    List.mem_filter.mpr ⟨h.positionId, by simp⟩
  rw [payload, get?_foldl_addField_of_mem (h.nodup.sublist hsub) hmem Json.noConfusion]
  rfl

/-- An OPEN. -/
lemma note_open (h : c.Plain pid) (htype : c.type = "OPEN") (ids : List Text) :
    c.note ids = .chars pid :: ids := by
  rw [Call.note, Runner.note, h.get?_type, h.get?_positionId, htype, if_pos rfl]
  rfl

/-- A full CLOSE. -/
lemma note_close (h : c.Plain pid) (htype : c.type = "CLOSE") (hqty : ∀ p ∈ c.fields, p.1 ≠ "qty")
    (ids : List Text) : c.note ids = ids.filter (· ≠ .chars pid) := by
  have hnone : (c.payload "" "").get? "qty" = none := by
    rw [payload, get?_foldl_addField fun p hp => hqty p (List.mem_filter.mp hp).1]
    rfl
  rw [Call.note, Runner.note, h.get?_type, h.get?_positionId, htype, if_neg (by decide),
    if_pos ⟨rfl, hnone⟩]
  refine List.filter_congr fun pid' _ => ?_
  exact decide_eq_decide.mpr (not_congr Option.some_inj)

/-- A MODIFY, or anything else that neither opens nor closes. -/
lemma note_other (h : c.Plain pid) (hopen : c.type ≠ "OPEN") (hclose : c.type ≠ "CLOSE")
    (ids : List Text) : c.note ids = ids := by
  have htype : ∀ type, c.type ≠ type → some (Text.chars c.type) ≠ some (.chars type) :=
    fun type hne heq => hne (Text.chars.inj (Option.some.inj heq))
  rw [Call.note, Runner.note, h.get?_type, if_neg (htype _ hopen),
    if_neg fun hboth => htype _ hclose hboth.1]

/-- A partial CLOSE. -/
lemma note_part (h : c.Plain pid) (hopen : c.type ≠ "OPEN") {qty : Json} (hqty : ("qty", qty) ∈ c.fields)
    (hnull : qty ≠ .null) (ids : List Text) : c.note ids = ids := by
  have hsub := (List.filter_sublist (p := fun p : String × Json => decide (p.1 ≠ "timestamp"))
    (l := c.fields)).map Prod.fst
  have hmem : ("qty", qty) ∈ c.fields.filter fun p => p.1 ≠ "timestamp" :=
    List.mem_filter.mpr ⟨hqty, by simp⟩
  have hsome : (c.payload "" "").get? "qty" = some (pyStr qty) := by
    rw [payload, get?_foldl_addField_of_mem (h.nodup.sublist hsub) hmem hnull]
  have htype : some (Text.chars c.type) ≠ some (.chars "OPEN") :=
    fun heq => hopen (Text.chars.inj (Option.some.inj heq))
  rw [Call.note, Runner.note, h.get?_type, hsome, if_neg htype, if_neg fun hboth => ?_]
  cases hboth.2

end Call.Plain

/-! ## Outcomes -/

/-- How a dispatch ends: what `Reply` says, and whether an `xadd` that raises has appended. -/
inductive Outcome
  | published
  | dropped
  | skipped
  | lost
  | unacknowledged
deriving DecidableEq

/-- The message is in the stream. -/
def Outcome.appended : Outcome → Bool
  | .published | .unacknowledged => true
  | _ => false

/-- The reply of a dispatch. -/
def Outcome.reply (signalId : String) : Outcome → Reply
  | .published => .published signalId
  | .dropped => .dropped
  | .skipped => .skipped signalId
  | .lost | .unacknowledged => .raised signalId

namespace Dispatcher

variable (digest : Logical → String)

/-- The outcome of a dispatch. -/
def outcome (d : Dispatcher) (env : DispatchEnv) (call : Call) : Outcome :=
  if env.leaseValid = false then .dropped
  else if digest call.logical ∈ d.seen then .skipped
  else match appendOf env call with
    | .lost => .lost
    | .unacknowledged => .unacknowledged
    | .acknowledged => .published

/-- The outcomes of the dispatches of a run. -/
def outcomes : Dispatcher → List Event → List (Call × Outcome)
  | _, [] => []
  | d, .dispatch env call :: es =>
    (call, d.outcome digest env call) :: outcomes (d.dispatch digest env call).2 es
  | d, .restart ok :: es => outcomes (d.restart ok) es

lemma dispatch_eq (d : Dispatcher) (env : DispatchEnv) (call : Call) :
    (d.dispatch digest env call).1 =
        (d.outcome digest env call).reply (digest call.logical) ∧
      (d.dispatch digest env call).2.stream = d.stream ++
        if (d.outcome digest env call).appended then [call.payload env.now (digest call.logical)]
        else [] := by
  unfold dispatch outcome
  by_cases hlease : env.leaseValid = false
  · rw [if_pos hlease, if_pos hlease]
    exact ⟨rfl, (List.append_nil _).symm⟩
  · rw [if_neg hlease, if_neg hlease]
    by_cases hseen : digest call.logical ∈ d.seen
    · simp only [if_pos hseen]
      exact ⟨rfl, (List.append_nil _).symm⟩
    · simp only [if_neg hseen]
      cases appendOf env call with
      | lost => exact ⟨rfl, (List.append_nil _).symm⟩
      | unacknowledged => exact ⟨rfl, rfl⟩
      | acknowledged => exact ⟨rfl, rfl⟩

end Dispatcher

/-! ## Sending -/

/-- An exception comes back. -/
def Outcome.raises : Outcome → Bool
  | .lost | .unacknowledged => true
  | _ => false

/-- What outcomes do to the ids that are open. -/
def noteAll (ids : List Text) (sent : List (Call × Outcome)) : List Text :=
  sent.foldl (fun ids e => if e.2.appended then e.1.note ids else ids) ids

lemma noteAll_cons (ids : List Text) (c : Call) (outcome : Outcome) (sent : List (Call × Outcome)) :
    noteAll ids ((c, outcome) :: sent) =
      noteAll (if outcome.appended then c.note ids else ids) sent := rfl

lemma noteAll_append (ids : List Text) (sent sent' : List (Call × Outcome)) :
    noteAll ids (sent ++ sent') = noteAll (noteAll ids sent) sent' := List.foldl_append ..

/-- Without an append nothing changes. -/
lemma noteAll_of_not_appended {sent : List (Call × Outcome)} (h : ∀ e ∈ sent, e.2.appended = false)
    (ids : List Text) : noteAll ids sent = ids := by
  induction sent with
  | nil => rfl
  | cons e sent ih =>
    have hhead : e.2.appended = false := h e (List.mem_cons_self ..)
    rw [noteAll_cons, hhead]
    exact ih fun e' he' => h e' (List.mem_cons_of_mem _ he')

namespace Outbox

variable (digest : Logical → String)

/-- The outcomes of what has been sent since `o`. -/
def since (o o' : Outbox) : List (Call × Outcome) :=
  outcomes digest o.dispatcher (o'.history.drop o.history.length)

/-- The ids that are open after what has been appended from the `n`-th message on. -/
def openIds (loaded : List Text) (n : ℕ) (o : Outbox) : List Text :=
  Runner.openIds loaded (o.dispatcher.stream.drop n)

/-- Dispatches with these outcomes lead from `o` to `o'`. -/
inductive Sends : Outbox → List (Call × Outcome) → Outbox → Prop
  | nil (o) : Sends o [] o
  | cons {o c env sent o'} (h : Sends (o.send digest env c) sent o') :
      Sends o ((c, o.dispatcher.outcome digest env c) :: sent) o'

variable {digest}

lemma Sends.single (o : Outbox) (env : DispatchEnv) (c : Call) :
    Sends digest o [(c, o.dispatcher.outcome digest env c)] (o.send digest env c) := .cons (.nil _)

lemma Sends.trans {o o' o'' : Outbox} {sent sent' : List (Call × Outcome)}
    (h : Sends digest o sent o') (h' : Sends digest o' sent' o'') :
    Sends digest o (sent ++ sent') o'' := by
  induction h with
  | nil o => exact h'
  | cons h ih => exact .cons (ih h')

/-- The events behind the outcomes. -/
lemma Sends.exists_events {o o' : Outbox} {sent : List (Call × Outcome)} (h : Sends digest o sent o') :
    ∃ es, o'.history = o.history ++ es ∧ outcomes digest o.dispatcher es = sent := by
  induction h with
  | nil o => exact ⟨[], (List.append_nil _).symm, rfl⟩
  | @cons o c env sent o' h ih =>
    obtain ⟨es, hhistory, hsent⟩ := ih
    refine ⟨.dispatch env c :: es, ?_, congrArg (_ :: ·) hsent⟩
    rw [hhistory, send, List.append_assoc]
    rfl

lemma Sends.since_eq {o o' : Outbox} {sent : List (Call × Outcome)} (h : Sends digest o sent o') :
    since digest o o' = sent := by
  obtain ⟨es, hhistory, hsent⟩ := h.exists_events
  rw [since, hhistory, List.drop_left, hsent]

/-- What is open changes as the outcomes say. -/
lemma Sends.openIds {o o' : Outbox} {sent : List (Call × Outcome)} (h : Sends digest o sent o')
    (loaded : List Text) {n : ℕ} (hn : n ≤ o.dispatcher.stream.length) :
    n ≤ o'.dispatcher.stream.length ∧
      o'.openIds loaded n = noteAll (o.openIds loaded n) sent := by
  induction h with
  | nil o => exact ⟨hn, rfl⟩
  | @cons o c env sent o' h ih =>
    have hstream := (dispatch_eq digest o.dispatcher env c).2
    change (o.send digest env c).dispatcher.stream = _ at hstream
    have hstep : (o.send digest env c).openIds loaded n =
        if (o.dispatcher.outcome digest env c).appended then c.note (o.openIds loaded n)
        else o.openIds loaded n := by
      rw [Outbox.openIds, hstream]
      split
      · rw [List.drop_append_of_le_length hn, Runner.openIds, List.foldl_append]
        exact note_payload _ _ _ _
      · rw [List.append_nil]
        rfl
    have hlength : n ≤ (o.send digest env c).dispatcher.stream.length := by
      rw [hstream, List.length_append]
      omega
    rw [(ih hlength).2, hstep]
    exact ⟨(ih hlength).1, rfl⟩

end Outbox

end PaperTrade.Runner
