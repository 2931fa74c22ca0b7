import PaperTrade.Runtime.Table
import PaperTrade.Runtime.Text

/-!
# The signal dispatcher

`SignalDispatcher.dispatch` of the runner: a signal whose id is in the window of remembered ids is
skipped, any other one is remembered, in memory and in a Redis list, and then appended to the
stream. The window is restored from the list when the process starts.

What a dispatch takes from outside is its `DispatchEnv`: the lease, the clock, what becomes of the
Redis pipeline of `_remember` and of the `xadd`. The digest of a signal is a parameter.

A skipped signal has been appended before in every run in which no append is lost
(`skipped_was_appended`). A lost append is not made good by a retry, since the id is remembered
before the append: `lostClose_skipped`.
-/

namespace PaperTrade.Runner

open PaperTrade.Runtime

/-- What a `StrategyContext` says about the sender of a signal. -/
structure Context where
  alphaId : String
  version : String

/-- A call of `dispatch`: the sender, the signal type and the keyword arguments. -/
structure Call where
  ctx : Context
  type : String
  fields : Entries

/-- The record that `signal_id` hashes. -/
structure Logical where
  alphaId : String
  version : String
  type : String
  symbol : Json
  tf : Json
  side : Json
  positionId : Json
  signalCandleOpenMs : Json
  reason : Json
deriving DecidableEq

namespace Call

/-- `fields.get(key, "")`. -/
def field (c : Call) (key : String) : Json := (c.fields.get? key).getD (.str "")

/-- The logical record of `SignalDispatcher.signal_id`. -/
def logical (c : Call) : Logical where
  alphaId := c.ctx.alphaId
  version := c.ctx.version
  type := c.type
  symbol := c.field "symbol"
  tf := c.field "tf"
  side := c.field "side"
  positionId := c.field "position_id"
  signalCandleOpenMs := c.field "signal_candle_open_ms"
  reason := c.field "reason"

/-- `fields.pop("timestamp", now)`. -/
def timestamp (c : Call) (now : String) : Json := (c.fields.get? "timestamp").getD (.str now)

end Call

/-- A stream message. -/
abbrev Message := Dict String Text

/-- `payload[key] = value if isinstance(value, str) else str(value)`, unless the value is
`None`. -/
def addField (m : Message) (p : String × Json) : Message :=
  match p.2 with
  | .null => m
  | v => m.set p.1 (pyStr v)

/-- The payload of `dispatch`. -/
def Call.payload (c : Call) (now signalId : String) : Message :=
  let base : Message := Dict.set Table.empty "type" (.chars c.type)
  let base : Message := base.set "alpha_id" (.chars c.ctx.alphaId)
  let base : Message := base.set "signal_id" (.chars signalId)
  let base : Message := base.set "timestamp" (pyStr (c.timestamp now))
  (c.fields.filter fun p => p.1 ≠ "timestamp").foldl addField base

/-- The values that the Redis client sends. -/
def encodable : Json → Bool
  | .str _ | .int _ | .float _ => true
  | _ => false

/-- What becomes of the pipeline of `_remember`: nothing is sent, only the `lpush` takes effect, or
both commands do. An exception on the way is swallowed. -/
inductive Pipeline
  | failed
  | pushed
  | executed
deriving DecidableEq

/-- What becomes of an `xadd`: it raises and has not appended, it raises after the append, or it
returns. -/
inductive Append
  | lost
  | unacknowledged
  | acknowledged
deriving DecidableEq

/-- What a dispatch takes from outside. -/
structure DispatchEnv where
  now : String
  leaseValid : Bool := true
  pipeline : Pipeline := .executed
  append : Append := .acknowledged

/-- How a dispatch ends. -/
inductive Reply
  /-- `None`: the lease is not valid -/
  | dropped
  /-- `None`: the id is remembered -/
  | skipped (signalId : String)
  | published (signalId : String)
  /-- `xadd` raises -/
  | raised (signalId : String)
deriving DecidableEq

/-- The dispatcher and its Redis: the window of remembered ids, the oldest first, the list of
`_dedup_key`, the newest first, and the stream. -/
structure Dispatcher where
  maxSeen : ℕ := 4096
  seen : List String := []
  dedup : List String := []
  stream : List Message := []

namespace Dispatcher

/-- `lrange(key, 0, max_seen - 1)`; an end of `-1` is the end of the list. -/
def lrange (n : ℕ) (l : List String) : List String := if n = 0 then l else l.take n

/-- `OrderedDict[signal_id] = None`. -/
def touch (seen : List String) (signalId : String) : List String :=
  if signalId ∈ seen then seen else seen ++ [signalId]

/-- `_restore_seen`; `ok` says whether Redis answers. -/
def restoreSeen (d : Dispatcher) (ok : Bool) : List String :=
  if ok then (lrange d.maxSeen d.dedup).reverse.foldl touch [] else []

/-- A new process on the same Redis. -/
def restart (d : Dispatcher) (ok : Bool) : Dispatcher := { d with seen := d.restoreSeen ok }

/-- `_remember`. -/
def remember (d : Dispatcher) (p : Pipeline) (signalId : String) : Dispatcher :=
  let seen := d.seen.erase signalId ++ [signalId]
  { d with
    seen := seen.drop (seen.length - d.maxSeen)
    dedup := match p with
      | .failed => d.dedup
      | .pushed => signalId :: d.dedup
      | .executed => lrange d.maxSeen (signalId :: d.dedup) }

/-- What becomes of the `xadd` of a call: the client refuses a timestamp it cannot encode. -/
def appendOf (env : DispatchEnv) (call : Call) : Append :=
  if encodable (call.timestamp env.now) then env.append else .lost

variable (digest : Logical → String)

/-- `dispatch`. -/
def dispatch (d : Dispatcher) (env : DispatchEnv) (call : Call) : Reply × Dispatcher :=
  if env.leaseValid = false then (.dropped, d)
  else
    let signalId := digest call.logical
    if signalId ∈ d.seen then (.skipped signalId, d)
    else
      let d := d.remember env.pipeline signalId
      let appended := { d with stream := d.stream ++ [call.payload env.now signalId] }
      match appendOf env call with
      | .lost => (.raised signalId, d)
      | .unacknowledged => (.raised signalId, appended)
      | .acknowledged => (.published signalId, appended)

/-- A dispatch or a restart of the process. -/
inductive Event
  | dispatch (env : DispatchEnv) (call : Call)
  | restart (ok : Bool)

def step (d : Dispatcher) : Event → Dispatcher
  | .dispatch env call => (d.dispatch digest env call).2
  | .restart ok => d.restart ok

/-- The dispatcher after a run. -/
def run (d : Dispatcher) (events : List Event) : Dispatcher := events.foldl (step digest) d

/-- The calls of a run. -/
def calls (events : List Event) : List Call :=
  events.filterMap fun
    | .dispatch _ call => some call
    | .restart _ => none

lemma calls_append (es es' : List Event) : calls (es ++ es') = calls es ++ calls es' :=
  List.filterMap_append ..

/-! ## What is remembered has been appended -/

lemma mem_touch {seen : List String} {x y : String} : x ∈ touch seen y ↔ x ∈ seen ∨ x = y := by
  unfold touch
  split
  · rename_i hy
    constructor
    · exact .inl
    · rintro (hx | rfl)
      · exact hx
      · exact hy
  · simp

lemma mem_of_mem_lrange {n : ℕ} {l : List String} {x : String} (h : x ∈ lrange n l) : x ∈ l := by
  unfold lrange at h
  split at h
  · exact h
  · exact List.mem_of_mem_take h

lemma mem_foldl_touch {l seen : List String} {x : String} (h : x ∈ l.foldl touch seen) :
    x ∈ seen ∨ x ∈ l := by
  induction l generalizing seen with
  | nil => exact .inl h
  | cons y l ih =>
    rcases ih h with h | h
    · rcases mem_touch.mp h with h | rfl
      · exact .inl h
      · exact .inr (List.mem_cons_self ..)
    · exact .inr (List.mem_cons_of_mem _ h)

/-- A restored id comes from the list in Redis. -/
lemma mem_restoreSeen {d : Dispatcher} {ok : Bool} {x : String} (h : x ∈ d.restoreSeen ok) :
    x ∈ d.dedup := by
  unfold restoreSeen at h
  split at h
  · rcases mem_foldl_touch h with h | h
    · cases h
    · exact mem_of_mem_lrange (List.mem_reverse.mp h)
  · cases h

/-- `_remember` adds nothing but its id, to the window and to the list. -/
lemma mem_remember {d : Dispatcher} {p : Pipeline} {id x : String}
    (h : x ∈ (d.remember p id).seen ∨ x ∈ (d.remember p id).dedup) :
    x = id ∨ x ∈ d.seen ∨ x ∈ d.dedup := by
  rcases h with h | h
  · rcases List.mem_append.mp (List.mem_of_mem_drop h) with h | h
    · exact .inr (.inl (List.mem_of_mem_erase h))
    · exact .inl (List.mem_singleton.mp h)
  · cases p with
    | failed => exact .inr (.inr h)
    | pushed => exact (List.mem_cons.mp h).imp_right .inr
    | executed => exact (List.mem_cons.mp (mem_of_mem_lrange h)).imp_right .inr

/-- The append of the event, if one is tried, is not lost. -/
def Event.Appends : Event → Prop
  | .dispatch env call => env.leaseValid = true → appendOf env call ≠ .lost
  | .restart _ => True

/-- Every remembered id is that of one of the calls, and the call has been appended. -/
def Remembers (cs : List Call) (d : Dispatcher) : Prop :=
  ∀ id, id ∈ d.seen ∨ id ∈ d.dedup →
    ∃ c ∈ cs, digest c.logical = id ∧ ∃ now, c.payload now id ∈ d.stream

variable {digest}

lemma Remembers.mono {cs cs' : List Call} {d : Dispatcher} (h : Remembers digest cs d)
    (hsub : cs ⊆ cs') : Remembers digest cs' d := by
  intro id hid
  obtain ⟨c, hc, hrest⟩ := h id hid
  exact ⟨c, hsub hc, hrest⟩

variable (digest) in
/-- What a dispatch does. -/
lemma dispatch_cases (d : Dispatcher) (env : DispatchEnv) (call : Call) :
    (env.leaseValid = false ∧ d.dispatch digest env call = (.dropped, d)) ∨
    (env.leaseValid = true ∧ digest call.logical ∈ d.seen ∧
      d.dispatch digest env call = (.skipped (digest call.logical), d)) ∨
    (env.leaseValid = true ∧ digest call.logical ∉ d.seen ∧ appendOf env call = .lost ∧
      d.dispatch digest env call = (.raised (digest call.logical),
        d.remember env.pipeline (digest call.logical))) ∨
    (env.leaseValid = true ∧ digest call.logical ∉ d.seen ∧ appendOf env call ≠ .lost ∧
      ∃ r, (∀ id, r ≠ .skipped id) ∧ (appendOf env call = .acknowledged → ∀ id, r ≠ .raised id) ∧
        d.dispatch digest env call =
        (r, { d.remember env.pipeline (digest call.logical) with
          stream := d.stream ++ [call.payload env.now (digest call.logical)] })) := by
  unfold dispatch
  cases hlease : env.leaseValid with
  | false => exact .inl ⟨rfl, if_pos rfl⟩
  | true =>
  rw [if_neg Bool.noConfusion]
  by_cases hseen : digest call.logical ∈ d.seen
  · exact .inr (.inl ⟨rfl, hseen, if_pos hseen⟩)
  · simp only [if_neg hseen]
    cases happend : appendOf env call with
    | lost => exact .inr (.inr (.inl ⟨trivial, hseen, rfl, rfl⟩))
    | unacknowledged =>
      exact .inr (.inr (.inr ⟨trivial, hseen, Append.noConfusion, _, fun _ => Reply.noConfusion,
        Append.noConfusion, rfl⟩))
    | acknowledged =>
      exact .inr (.inr (.inr ⟨trivial, hseen, Append.noConfusion, _, fun _ => Reply.noConfusion,
        fun _ _ => Reply.noConfusion, rfl⟩))

/-- One event keeps the invariant when its append is not lost. -/
theorem remembers_step {cs : List Call} {d : Dispatcher} {e : Event} (h : Remembers digest cs d)
    (he : e.Appends) : Remembers digest (cs ++ calls [e]) (d.step digest e) := by
  have hmono : Remembers digest (cs ++ calls [e]) d := h.mono (List.subset_append_left _ _)
  cases e with
  | restart ok =>
    intro id hid
    exact hmono id (.inr (hid.elim mem_restoreSeen fun h => h))
  | dispatch env call =>
    change Remembers digest (cs ++ [call]) d at hmono
    change Remembers digest (cs ++ [call]) (d.dispatch digest env call).2
    rcases dispatch_cases digest d env call with ⟨-, heq⟩ | ⟨-, -, heq⟩ |
      ⟨hlease, -, hlost, -⟩ | ⟨-, -, -, r, -, -, heq⟩
    · rw [heq]
      exact hmono
    · rw [heq]
      exact hmono
    · exact absurd hlost (he hlease)
    · rw [heq]
      intro id hid
      rcases mem_remember hid with rfl | hid
      · exact ⟨call, by simp, rfl, env.now, by simp⟩
      · obtain ⟨c, hc, heq, now, hmem⟩ := hmono id hid
        exact ⟨c, hc, heq, now, List.mem_append_left _ hmem⟩

/-- A run whose appends are not lost. -/
theorem remembers_run {cs : List Call} {d : Dispatcher} {events : List Event}
    (h : Remembers digest cs d) (he : ∀ e ∈ events, e.Appends) :
    Remembers digest (cs ++ calls events) (d.run digest events) := by
  induction events generalizing cs d with
  | nil => simpa [calls, run] using h
  | cons e events ih =>
    have hstep := remembers_step h (he e (List.mem_cons_self ..))
    have hrun := ih hstep fun e' he' => he e' (List.mem_cons_of_mem _ he')
    have hcalls : cs ++ calls (e :: events) = cs ++ calls [e] ++ calls events := by
      rw [List.append_assoc]
      exact congrArg (cs ++ ·) (calls_append [e] events)
    rw [hcalls]
    exact hrun

lemma remembers_fresh (maxSeen : ℕ) : Remembers digest [] { maxSeen := maxSeen } := by
  intro id hid
  rcases hid with h | h <;> cases h

/-! ## Skips -/

lemma get?_addField {m : Message} {p : String × Json} {key : String} (h : p.1 ≠ key) :
    (addField m p).get? key = m.get? key := by
  obtain ⟨k, v⟩ := p
  cases v <;> simp only [addField, Dict.get?_set, if_neg (Ne.symm h)]

lemma get?_foldl_addField {fields : Entries} {m : Message} {key : String}
    (h : ∀ p ∈ fields, p.1 ≠ key) : (fields.foldl addField m).get? key = m.get? key := by
  induction fields generalizing m with
  | nil => rfl
  | cons p fields ih =>
    rw [List.foldl_cons, ih fun q hq => h q (List.mem_cons_of_mem _ hq),
      get?_addField (h p (List.mem_cons_self ..))]

/-- Without a field of that name the message carries the id it is published under. -/
lemma get?_signalId_payload {c : Call} (h : ∀ p ∈ c.fields, p.1 ≠ "signal_id")
    (now signalId : String) :
    (c.payload now signalId).get? "signal_id" = some (.chars signalId) := by
  rw [Call.payload, get?_foldl_addField fun p hp => h p (List.mem_filter.mp hp).1,
    Dict.get?_set, if_neg (by decide), Dict.get?_set, if_pos rfl]

/-- The call names no `signal_id` of its own. -/
def Event.Unnamed : Event → Prop
  | .dispatch _ call => ∀ p ∈ call.fields, p.1 ≠ "signal_id"
  | .restart _ => True

lemma unnamed_of_mem_calls {events : List Event} (h : ∀ e ∈ events, e.Unnamed) {c : Call}
    (hc : c ∈ calls events) : ∀ p ∈ c.fields, p.1 ≠ "signal_id" := by
  obtain ⟨e, he, hce⟩ := List.mem_filterMap.mp hc
  cases e with
  | dispatch env call =>
    cases hce
    exact h _ he
  | restart ok => cases hce

lemma mem_seen_of_skipped {d : Dispatcher} {env : DispatchEnv} {call : Call} {id : String}
    (h : (d.dispatch digest env call).1 = .skipped id) :
    id = digest call.logical ∧ id ∈ d.seen := by
  rcases dispatch_cases digest d env call with ⟨-, heq⟩ | ⟨-, hseen, heq⟩ |
    ⟨-, -, -, heq⟩ | ⟨-, -, -, r, hr, -, heq⟩
  · rw [heq] at h
    cases h
  · rw [heq] at h
    cases h
    exact ⟨rfl, hseen⟩
  · rw [heq] at h
    cases h
  · rw [heq] at h
    exact absurd h (hr id)

/-- In a run in which no append is lost, a skipped signal has been appended before. -/
theorem skipped_was_appended (digest : Logical → String) (maxSeen : ℕ) (events : List Event)
    (happends : ∀ e ∈ events, e.Appends) (hunnamed : ∀ e ∈ events, e.Unnamed) (env : DispatchEnv)
    (call : Call) (id : String)
    (hskip : ((run digest { maxSeen := maxSeen } events).dispatch digest env call).1 =
      .skipped id) :
    ∃ m ∈ (run digest { maxSeen := maxSeen } events).stream,
      m.get? "signal_id" = some (.chars id) := by
  obtain ⟨-, hseen⟩ := mem_seen_of_skipped hskip
  obtain ⟨c, hc, -, now, hmem⟩ :=
    remembers_run (remembers_fresh maxSeen) happends id (.inl hseen)
  rw [List.nil_append] at hc
  exact ⟨_, hmem, get?_signalId_payload (unnamed_of_mem_calls hunnamed hc) now id⟩

/-- The CLOSE of a position. -/
def closeCall : Call where
  ctx := ⟨"alpha", "v1"⟩
  type := "CLOSE"
  fields := [("position_id", .str "p1"), ("symbol", .str "BTCUSDT"), ("reason", .str "TP"),
    ("exit_price", .float (.fin 110))]

/-- The digest of a test: the type of the signal. -/
def typeDigest (l : Logical) : String := l.type

theorem skipped_was_appended_closeCall :
    ∃ m ∈ (run typeDigest {} [.dispatch { now := "t0" } closeCall, .restart true]).stream,
      m.get? "signal_id" = some (.chars "CLOSE") :=
  skipped_was_appended typeDigest 4096 [.dispatch { now := "t0" } closeCall, .restart true]
    (by
      intro e he
      simp only [List.mem_cons, List.not_mem_nil, or_false] at he
      rcases he with rfl | rfl
      · exact fun _ => by decide
      · trivial)
    (by
      intro e he
      simp only [List.mem_cons, List.not_mem_nil, or_false] at he
      rcases he with rfl | rfl
      · intro p hp
        simp only [closeCall, List.mem_cons, List.not_mem_nil, or_false] at hp
        rcases hp with rfl | rfl | rfl | rfl <;> decide
      · trivial)
    { now := "t1" } closeCall "CLOSE" (by decide)

/-- The append of a CLOSE is lost, and the retry is skipped: the stream never gets it. -/
theorem lostClose_skipped :
    ((run typeDigest {} [.dispatch { now := "t0", append := .lost } closeCall]).dispatch typeDigest
        { now := "t1" } closeCall).1 = .skipped "CLOSE" ∧
      (run typeDigest {} [.dispatch { now := "t0", append := .lost } closeCall]).stream = [] := by
  constructor
  · decide
  · rfl

end Dispatcher

end PaperTrade.Runner
