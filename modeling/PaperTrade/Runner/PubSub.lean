import PaperTrade.Runtime.Text

/-!
# `SharedPubSubManager`

The manager keeps, for every channel, the strategies that subscribe to it, for every strategy its
channels and its queue, and one Redis subscription that they share. `subscribe` and `unsubscribe`
suspend while Redis is told about a channel, and other calls run in between (`PubSubRun`).

A message goes to the queues of all subscribers of its channel (`handleMessage`); its candle has been
put into the cache before. A message whose payload is no object, or whose candle the cache refuses,
does not get that far.
-/

namespace PaperTrade.Runner

open PaperTrade.Runtime Json

/-! ## Events -/

/-- `DataEvent.kind`. -/
inductive EventKind
  | kline
  | priceAlert
  | symbols
  | message
deriving DecidableEq

/-- `DataEvent`. -/
structure DataEvent where
  channel : String
  kind : EventKind
  symbol : String := ""
  tf : String := ""
  payload : Entries := []
deriving DecidableEq

/-- `channel.startswith(start)`. -/
def startsWith (channel start : String) : Bool := start.toList.isPrefixOf channel.toList

/-- `channel.rsplit(":", 1)[-1]`. -/
def afterColon (channel : String) : String :=
  String.ofList (channel.toList.reverse.takeWhile fun c => c ≠ ':').reverse

/-- `str(payload.get(key, "") or default)`. -/
def payloadText (payload : Entries) (key default : String) : String :=
  match payload.get? key with
  | some v => if v.truthy then (pyStr v).spell else default
  | none => default

/-- `_event_from_payload`. -/
def eventFromPayload (channel : String) (payload : Entries) : DataEvent :=
  if startsWith channel "kline:" then
    { channel, kind := .kline, symbol := payloadText payload "symbol" "",
      tf := payloadText payload "tf" (afterColon channel), payload }
  else if startsWith channel "price_alert:" then
    { channel, kind := .priceAlert, symbol := payloadText payload "symbol" "", payload }
  else if startsWith channel "symbols:" then { channel, kind := .symbols, payload }
  else { channel, kind := .message, payload }

/-! ## A strategy's queue -/

/-- `asyncio.Queue.full()`: a queue without a positive size never is. -/
def isFull {α : Type} (maxsize : ℤ) (queue : List α) : Prop := 0 < maxsize ∧ maxsize ≤ queue.length

instance {α : Type} (maxsize : ℤ) (queue : List α) : Decidable (isFull maxsize queue) :=
  inferInstanceAs (Decidable (_ ∧ _))

/-- What becomes of an event that is offered to a queue. -/
inductive Offered
  | put
  | evicted
  | dropped
deriving DecidableEq

/-- An event is offered to a queue, oldest event first: a kline takes the place of the oldest event
of a full queue, another event is dropped there. -/
def offer {α : Type} (kind : α → EventKind) (maxsize : ℤ) (queue : List α) (event : α) :
    List α × Offered :=
  if ¬ isFull maxsize queue then (queue ++ [event], .put)
  else if kind event = .kline then
    if ¬ isFull maxsize queue.tail then (queue.tail ++ [event], .evicted)
    else (queue.tail, .dropped)
  else (queue, .dropped)

/-! ## The manager -/

/-- `SharedPubSubManager`. A queue is an object, `queues` holds its number; the dictionaries that
default to the empty set are functions. -/
structure PubSub where
  inline : Bool
  queueMaxsize : ℤ
  /-- `pubsub is not None` -/
  connected : Bool
  subscribers : String → List String
  strategyChannels : String → List String
  queues : String → Option ℕ
  /-- the channels that Redis sends to the connection -/
  channels : List String
  /-- the events in a queue -/
  contents : ℕ → List DataEvent
  /-- the queues made so far -/
  created : ℕ
  dropped : String → ℕ
  evicted : String → ℕ

/-- `s.add(x)`. -/
def setAdd (s : List String) (x : String) : List String := if x ∈ s then s else s ++ [x]

/-- `s.discard(x)`. -/
def setDiscard (s : List String) (x : String) : List String := s.filter fun y => y ≠ x

@[simp] lemma mem_setAdd (s : List String) (x y : String) : y ∈ setAdd s x ↔ y ∈ s ∨ y = x := by
  unfold setAdd
  split <;> rename_i h
  · constructor
    · exact Or.inl
    · rintro (hy | rfl)
      · exact hy
      · exact h
  · simp

@[simp] lemma mem_setDiscard (s : List String) (x y : String) :
    y ∈ setDiscard s x ↔ y ∈ s ∧ y ≠ x := by
  simp [setDiscard]

lemma nodup_setAdd {s : List String} (h : s.Nodup) (x : String) : (setAdd s x).Nodup := by
  unfold setAdd
  split
  · exact h
  · rename_i hx
    exact List.nodup_append.mpr ⟨h, List.nodup_singleton x, fun y hy z hz heq =>
      hx (List.mem_singleton.mp hz ▸ heq ▸ hy)⟩

namespace PubSub

/-- `SharedPubSubManager(redis_client, cache, queue_maxsize)`. -/
def init (inline : Bool) (queueMaxsize : ℤ) : PubSub where
  inline := inline
  queueMaxsize := queueMaxsize
  connected := inline
  subscribers _ := []
  strategyChannels _ := []
  queues _ := none
  channels := []
  contents _ := []
  created := 0
  dropped _ := 0
  evicted _ := 0

/-- `self._queues.setdefault(strategy_id, asyncio.Queue(…))`, the manager after it. -/
def withQueue (m : PubSub) (s : String) : PubSub :=
  match m.queues s with
  | some _ => m
  | none =>
    { m with
      queues := Function.update m.queues s (some m.created)
      contents := Function.update m.contents m.created []
      created := m.created + 1 }

/-- The end of `subscribe`. -/
def register (m : PubSub) (c s : String) : PubSub :=
  { m with
    subscribers := Function.update m.subscribers c (setAdd (m.subscribers c) s)
    strategyChannels := Function.update m.strategyChannels s (setAdd (m.strategyChannels s) c) }

/-- The start of `unsubscribe`. -/
def unregister (m : PubSub) (c s : String) : PubSub :=
  { m with
    subscribers := Function.update m.subscribers c (setDiscard (m.subscribers c) s)
    strategyChannels := Function.update m.strategyChannels s (setDiscard (m.strategyChannels s) c) }

/-- `self._subscribers.pop(channel, None)`. -/
def popChannel (m : PubSub) (c : String) : PubSub :=
  { m with subscribers := Function.update m.subscribers c [] }

/-- `if not self._strategy_channels[strategy_id]: …` -/
def popIdle (m : PubSub) (s : String) : PubSub :=
  if m.strategyChannels s = [] then { m with queues := Function.update m.queues s none } else m

/-- Redis subscribes the connection to the channel. -/
def redisSubscribe (m : PubSub) (c : String) : PubSub := { m with channels := setAdd m.channels c }

/-- Redis unsubscribes the connection from the channel. -/
def redisUnsubscribe (m : PubSub) (c : String) : PubSub := { m with channels := setDiscard m.channels c }

/-! ### Who subscribes to what -/

section Members

variable (m : PubSub) (c s : String) {c' s' : String}

lemma mem_register_subscribers :
    s' ∈ (m.register c s).subscribers c' ↔ s' ∈ m.subscribers c' ∨ c' = c ∧ s' = s := by
  show s' ∈ Function.update m.subscribers c _ c' ↔ _
  by_cases h : c' = c
  · subst h
    rw [Function.update_self, mem_setAdd]
    simp
  · rw [Function.update_of_ne h]
    simp [h]

lemma mem_register_strategyChannels :
    c' ∈ (m.register c s).strategyChannels s' ↔ c' ∈ m.strategyChannels s' ∨ c' = c ∧ s' = s := by
  show c' ∈ Function.update m.strategyChannels s _ s' ↔ _
  by_cases h : s' = s
  · subst h
    rw [Function.update_self, mem_setAdd]
    simp
  · rw [Function.update_of_ne h]
    simp [h]

lemma mem_unregister_subscribers :
    s' ∈ (m.unregister c s).subscribers c' ↔ s' ∈ m.subscribers c' ∧ ¬ (c' = c ∧ s' = s) := by
  show s' ∈ Function.update m.subscribers c _ c' ↔ _
  by_cases h : c' = c
  · subst h
    rw [Function.update_self, mem_setDiscard]
    simp
  · rw [Function.update_of_ne h]
    simp [h]

lemma mem_unregister_strategyChannels :
    c' ∈ (m.unregister c s).strategyChannels s' ↔
      c' ∈ m.strategyChannels s' ∧ ¬ (c' = c ∧ s' = s) := by
  show c' ∈ Function.update m.strategyChannels s _ s' ↔ _
  by_cases h : s' = s
  · subst h
    rw [Function.update_self, mem_setDiscard]
    simp
  · rw [Function.update_of_ne h]
    simp [h]

lemma mem_popChannel_subscribers :
    s' ∈ (m.popChannel c).subscribers c' ↔ s' ∈ m.subscribers c' ∧ c' ≠ c := by
  show s' ∈ Function.update m.subscribers c [] c' ↔ _
  by_cases h : c' = c
  · subst h
    simp
  · rw [Function.update_of_ne h]
    simp [h]

end Members

/-! ## `handle_message` -/

/-- One round of the loop of `handle_message`. -/
def deliver (m : PubSub) (event : DataEvent) (s : String) (q : ℕ) : PubSub :=
  let (queue, offered) := offer DataEvent.kind m.queueMaxsize (m.contents q) event
  let m := { m with contents := Function.update m.contents q queue }
  match offered with
  | .put => m
  | .evicted => { m with evicted := Function.update m.evicted s (m.evicted s + 1) }
  | .dropped => { m with dropped := Function.update m.dropped s (m.dropped s + 1) }

/-- The loop of `handle_message`; it ends at a `KeyError`, which names the strategy. -/
def deliverAll (event : DataEvent) : List String → PubSub → Except String Unit × PubSub
  | [], m => (.ok (), m)
  | s :: rest, m =>
    match m.queues s with
    | none => (.error s, m)
    | some q => deliverAll event rest (m.deliver event s q)

/-- `handle_message`, from the loop on. -/
def handleMessage (m : PubSub) (channel : String) (payload : Entries) : Except String Unit × PubSub :=
  deliverAll (eventFromPayload channel payload) (m.subscribers channel) m

end PubSub

/-! ## Calls in progress -/

/-- A call that waits for Redis. `sent` says that Redis has executed its command. -/
inductive PubSubCall
  | subscribe (c s : String) (queue : ℕ) (sent : Bool)
  | unsubscribe (c s : String) (sent : Bool)
deriving DecidableEq

/-- The manager, the calls in progress, and the queue that the last finished `subscribe` to a channel
gave to a strategy. -/
structure PubSubRun where
  manager : PubSub
  calls : List PubSubCall
  returned : String → String → Option ℕ

/-- What can happen between two awaits: a call starts, Redis executes the command of the `i`-th call,
the call goes on, or it raises what Redis raised. -/
inductive PubSubStep
  | subscribe (c s : String)
  | unsubscribe (c s : String)
  | send (i : ℕ)
  | resume (i : ℕ)
  | fail (i : ℕ)
deriving DecidableEq

namespace PubSubRun

/-- Nothing has happened yet. -/
def init (inline : Bool) (queueMaxsize : ℤ) : PubSubRun := ⟨.init inline queueMaxsize, [], fun _ _ => none⟩

/-- `subscribe` returns. -/
def subscribed (x : PubSubRun) (c s : String) (queue : Option ℕ) : PubSubRun :=
  { x with
    manager := x.manager.register c s
    returned := Function.update x.returned c (Function.update (x.returned c) s queue) }

/-- `subscribe`, up to its await. -/
def startSubscribe (x : PubSubRun) (c s : String) : PubSubRun :=
  let m := x.manager.withQueue s
  if m.subscribers c = [] then
    if m.inline then { x with manager := m.redisSubscribe c }.subscribed c s (m.queues s)
    else
      { x with
        manager := { m with connected := true }
        calls := x.calls ++ [.subscribe c s ((m.queues s).getD 0) false] }
  else { x with manager := m }.subscribed c s (m.queues s)

/-- `unsubscribe` waits for Redis. -/
def Awaits (x : PubSubRun) (c s : String) : Prop :=
  (x.manager.unregister c s).subscribers c = [] ∧ x.manager.connected = true ∧ x.manager.inline = false

instance (x : PubSubRun) (c s : String) : Decidable (x.Awaits c s) :=
  inferInstanceAs (Decidable (_ ∧ _ ∧ _))

/-- `unsubscribe`, up to its await. -/
def startUnsubscribe (x : PubSubRun) (c s : String) : PubSubRun :=
  let m := x.manager.unregister c s
  if x.Awaits c s then { x with manager := m, calls := x.calls ++ [.unsubscribe c s false] }
  else if m.subscribers c = [] then
    let m := if m.connected then m.redisUnsubscribe c else m
    { x with manager := (m.popChannel c).popIdle s }
  else { x with manager := m.popIdle s }

/-- Redis executes the command of the `i`-th call. -/
def send (x : PubSubRun) (i : ℕ) : PubSubRun :=
  match x.calls[i]? with
  | some (.subscribe c s q false) =>
    { x with
      manager := x.manager.redisSubscribe c
      calls := x.calls.set i (.subscribe c s q true) }
  | some (.unsubscribe c s false) =>
    { x with
      manager := x.manager.redisUnsubscribe c
      calls := x.calls.set i (.unsubscribe c s true) }
  | _ => x

/-- The `i`-th call goes on once Redis has executed its command. -/
def resume (x : PubSubRun) (i : ℕ) : PubSubRun :=
  match x.calls[i]? with
  | some (.subscribe c s q true) => { x with calls := x.calls.eraseIdx i }.subscribed c s (some q)
  | some (.unsubscribe c s true) =>
    { x with
      manager := (x.manager.popChannel c).popIdle s
      calls := x.calls.eraseIdx i }
  | _ => x

/-- One step. -/
def step (x : PubSubRun) : PubSubStep → PubSubRun
  | .subscribe c s => x.startSubscribe c s
  | .unsubscribe c s => x.startUnsubscribe c s
  | .send i => x.send i
  | .resume i => x.resume i
  | .fail i => { x with calls := x.calls.eraseIdx i }

/-- A run. -/
def steps (x : PubSubRun) (l : List PubSubStep) : PubSubRun := l.foldl step x

end PubSubRun

end PaperTrade.Runner
