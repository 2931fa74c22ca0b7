import PaperTrade.Runner.PubSub

/-!
# The registry of subscriptions under interleaving

The maps of the manager and the Redis subscription agree in every state of a run, whatever calls are
in progress, as long as a call that removes something does not finish over one that adds it
(`Careful`). The code does not see to that: what an `unsubscribe` found before its await it removes
after it.
-/

namespace PaperTrade.Runner

open PaperTrade.Runtime

namespace PubSubRun

/-! ## The invariant -/

/-- The maps agree with each other, with the calls in progress, and with Redis. -/
structure Registered (x : PubSubRun) : Prop where
  agree : ∀ c s, s ∈ x.manager.subscribers c ↔ c ∈ x.manager.strategyChannels s
  queue : ∀ c s, s ∈ x.manager.subscribers c →
    ∃ q, x.manager.queues s = some q ∧ x.returned c s = some q
  redis : ∀ c s, s ∈ x.manager.subscribers c → c ∈ x.manager.channels
  pending : ∀ c s q sent, .subscribe c s q sent ∈ x.calls →
    x.manager.queues s = some q ∧ (sent = true → c ∈ x.manager.channels)
  nodup : ∀ c, (x.manager.subscribers c).Nodup
  created : ∀ s q, x.manager.queues s = some q → q < x.manager.created
  own : ∀ s s' q, x.manager.queues s = some q → x.manager.queues s' = some q → s = s'
  alone : x.manager.inline = true → x.calls = []

namespace Registered

variable {x : PubSubRun} {c s : String}

lemma init (inline : Bool) (queueMaxsize : ℤ) : Registered (.init inline queueMaxsize) := by
  refine ⟨fun c s => ?_, ?_, ?_, ?_, fun c => List.nodup_nil, ?_, ?_, fun _ => rfl⟩
  · exact iff_of_false List.not_mem_nil List.not_mem_nil
  · intro c s hmem
    exact absurd hmem List.not_mem_nil
  · intro c s hmem
    exact absurd hmem List.not_mem_nil
  · intro c s q sent hmem
    exact absurd hmem List.not_mem_nil
  · intro s q hq
    cases hq
  · intro s s' q hq
    cases hq

/-! ## What the parts of a call keep -/

lemma withQueue (h : Registered x) (s : String) :
    Registered { x with manager := x.manager.withQueue s } ∧
      ∃ q, (x.manager.withQueue s).queues s = some q := by
  unfold PubSub.withQueue
  cases hs : x.manager.queues s with
  | some q => exact ⟨h, q, hs⟩
  | none =>
    have hold : ∀ s' q, x.manager.queues s' = some q →
        Function.update x.manager.queues s (some x.manager.created) s' = some q := by
      intro s' q hq
      have hne : s' ≠ s := fun heq => by rw [heq, hs] at hq; cases hq
      rwa [Function.update_of_ne hne]
    refine ⟨⟨h.agree, ?_, h.redis, ?_, h.nodup, ?_, ?_, h.alone⟩, x.manager.created, ?_⟩
    · intro c' s' hmem
      obtain ⟨q, hq, hreturned⟩ := h.queue c' s' hmem
      exact ⟨q, hold s' q hq, hreturned⟩
    · intro c' s' q sent hmem
      obtain ⟨hq, hsent⟩ := h.pending c' s' q sent hmem
      exact ⟨hold s' q hq, hsent⟩
    · intro s' q hq
      show q < x.manager.created + 1
      by_cases heq : s' = s
      · rw [heq] at hq
        have hnew : x.manager.created = q := by simpa using hq
        omega
      · have hq' : x.manager.queues s' = some q := by simpa [heq] using hq
        have := h.created s' q hq'
        omega
    · intro s' s'' q hq hq'
      by_cases heq : s' = s <;> by_cases heq' : s'' = s
      · rw [heq, heq']
      · exfalso
        rw [heq] at hq
        have hnew : x.manager.created = q := by simpa using hq
        have := h.created s'' q (by simpa [heq'] using hq')
        omega
      · exfalso
        rw [heq'] at hq'
        have hnew : x.manager.created = q := by simpa using hq'
        have := h.created s' q (by simpa [heq] using hq)
        omega
      · exact h.own s' s'' q (by simpa [heq] using hq) (by simpa [heq'] using hq')
    · simp

lemma subscribed (h : Registered x) {q : ℕ} (hq : x.manager.queues s = some q)
    (hc : c ∈ x.manager.channels) : Registered (x.subscribed c s (some q)) := by
  refine ⟨?_, ?_, ?_, h.pending, ?_, h.created, h.own, h.alone⟩
  · intro c' s'
    show s' ∈ (x.manager.register c s).subscribers c' ↔ c' ∈ (x.manager.register c s).strategyChannels s'
    rw [PubSub.mem_register_subscribers, PubSub.mem_register_strategyChannels, h.agree]
  · intro c' s' hmem
    by_cases hnew : c' = c ∧ s' = s
    · obtain ⟨rfl, rfl⟩ := hnew
      refine ⟨q, hq, ?_⟩
      simp [PubSubRun.subscribed]
    · have hold := ((x.manager.mem_register_subscribers c s).mp hmem).resolve_right hnew
      obtain ⟨q', hq', hreturned⟩ := h.queue c' s' hold
      refine ⟨q', hq', ?_⟩
      show Function.update x.returned c (Function.update (x.returned c) s (some q)) c' s' = some q'
      by_cases hcc : c' = c
      · have hss : s' ≠ s := fun hss => hnew ⟨hcc, hss⟩
        subst hcc
        rw [Function.update_self, Function.update_of_ne hss, hreturned]
      · rw [Function.update_of_ne hcc, hreturned]
  · intro c' s' hmem
    rcases (x.manager.mem_register_subscribers c s).mp hmem with hold | ⟨rfl, rfl⟩
    · exact h.redis c' s' hold
    · exact hc
  · intro c'
    show (Function.update x.manager.subscribers c _ c').Nodup
    by_cases hcc : c' = c
    · subst hcc
      rw [Function.update_self]
      exact nodup_setAdd (h.nodup c') s
    · rw [Function.update_of_ne hcc]
      exact h.nodup c'

lemma unregister (h : Registered x) (c s : String) :
    Registered { x with manager := x.manager.unregister c s } := by
  have hold : ∀ {c' s' : String}, s' ∈ (x.manager.unregister c s).subscribers c' →
      s' ∈ x.manager.subscribers c' :=
    fun hmem => ((x.manager.mem_unregister_subscribers c s).mp hmem).1
  refine ⟨?_, fun c' s' hmem => h.queue c' s' (hold hmem), fun c' s' hmem => h.redis c' s' (hold hmem),
    h.pending, ?_, h.created, h.own, h.alone⟩
  · intro c' s'
    show s' ∈ (x.manager.unregister c s).subscribers c' ↔
      c' ∈ (x.manager.unregister c s).strategyChannels s'
    rw [PubSub.mem_unregister_subscribers, PubSub.mem_unregister_strategyChannels, h.agree]
  · intro c'
    show (Function.update x.manager.subscribers c _ c').Nodup
    by_cases hcc : c' = c
    · subst hcc
      rw [Function.update_self]
      exact (h.nodup c').filter _
    · rw [Function.update_of_ne hcc]
      exact h.nodup c'

lemma popChannel (h : Registered x) (hc : x.manager.subscribers c = []) :
    Registered { x with manager := x.manager.popChannel c } := by
  have hsame : x.manager.popChannel c = x.manager := by
    unfold PubSub.popChannel
    rw [← hc, Function.update_eq_self]
  rw [hsame]
  exact h

/-- The queue of a strategy may go once it has no channel, and no `subscribe` of it is waiting. -/
lemma popIdle (h : Registered x) (hidle : x.manager.strategyChannels s = [] →
    ∀ c q sent, .subscribe c s q sent ∉ x.calls) :
    Registered { x with manager := x.manager.popIdle s } := by
  unfold PubSub.popIdle
  split
  · rename_i hempty
    have hkeep : ∀ s', s' ≠ s → Function.update x.manager.queues s none s' = x.manager.queues s' :=
      fun s' hne => Function.update_of_ne hne _ _
    have hsome : ∀ s' q, Function.update x.manager.queues s none s' = some q →
        x.manager.queues s' = some q := by
      intro s' q hq
      by_cases hss : s' = s
      · rw [hss, Function.update_self] at hq
        cases hq
      · rwa [hkeep s' hss] at hq
    refine ⟨h.agree, ?_, h.redis, ?_, h.nodup, fun s' q hq => h.created s' q (hsome s' q hq),
      fun s' s'' q hq hq' => h.own s' s'' q (hsome s' q hq) (hsome s'' q hq'), h.alone⟩
    · intro c' s' hmem
      have hss : s' ≠ s := by
        rintro rfl
        have hchannel := (h.agree c' s').mp hmem
        rw [hempty] at hchannel
        exact List.not_mem_nil hchannel
      obtain ⟨q, hq, hreturned⟩ := h.queue c' s' hmem
      exact ⟨q, (hkeep s' hss).trans hq, hreturned⟩
    · intro c' s' q sent hmem
      have hss : s' ≠ s := by
        rintro rfl
        exact hidle hempty c' q sent hmem
      obtain ⟨hq, hsent⟩ := h.pending c' s' q sent hmem
      exact ⟨(hkeep s' hss).trans hq, hsent⟩
  · exact h

lemma redisSubscribe (h : Registered x) (c : String) :
    Registered { x with manager := x.manager.redisSubscribe c } := by
  have hkeep : ∀ {c'}, c' ∈ x.manager.channels → c' ∈ setAdd x.manager.channels c :=
    fun hmem => (mem_setAdd _ _ _).mpr (.inl hmem)
  refine ⟨h.agree, h.queue, fun c' s' hmem => hkeep (h.redis c' s' hmem), ?_, h.nodup, h.created, h.own,
    h.alone⟩
  intro c' s' q sent hmem
  obtain ⟨hq, hsent⟩ := h.pending c' s' q sent hmem
  exact ⟨hq, fun h => hkeep (hsent h)⟩

/-- Redis may drop a channel that nobody subscribes to, also not any more by a call in progress. -/
lemma redisUnsubscribe (h : Registered x) (hc : x.manager.subscribers c = [])
    (hcalls : ∀ s q, .subscribe c s q true ∉ x.calls) :
    Registered { x with manager := x.manager.redisUnsubscribe c } := by
  have hkeep : ∀ {c'}, c' ∈ x.manager.channels → c' ≠ c → c' ∈ setDiscard x.manager.channels c :=
    fun hmem hne => (mem_setDiscard _ _ _).mpr ⟨hmem, hne⟩
  refine ⟨h.agree, h.queue, ?_, ?_, h.nodup, h.created, h.own, h.alone⟩
  · intro c' s' hmem
    refine hkeep (h.redis c' s' hmem) ?_
    rintro rfl
    have hmem' : s' ∈ x.manager.subscribers c' := hmem
    rw [hc] at hmem'
    exact List.not_mem_nil hmem'
  · intro c' s' q sent hmem
    obtain ⟨hq, hsent⟩ := h.pending c' s' q sent hmem
    refine ⟨hq, fun hs => hkeep (hsent hs) ?_⟩
    rintro rfl
    exact hcalls s' q (hs ▸ hmem)

/-- Calls may be added, dropped or sent, as long as what the waiting ones rely on holds. -/
lemma withCalls (h : Registered x) {calls : List PubSubCall}
    (hcalls : ∀ c s q sent, .subscribe c s q sent ∈ calls →
      x.manager.queues s = some q ∧ (sent = true → c ∈ x.manager.channels))
    (halone : x.manager.inline = true → calls = []) : Registered { x with calls := calls } :=
  ⟨h.agree, h.queue, h.redis, hcalls, h.nodup, h.created, h.own, halone⟩

lemma connected (h : Registered x) (b : Bool) :
    Registered { x with manager := { x.manager with connected := b } } :=
  ⟨h.agree, h.queue, h.redis, h.pending, h.nodup, h.created, h.own, h.alone⟩

end Registered

/-! ## Careful steps -/

/-- No `subscribe` of the strategy waits. -/
def NoneWaits (x : PubSubRun) (s : String) : Prop := ∀ c q sent, .subscribe c s q sent ∉ x.calls

/-- What a step removes, no other call has added or is about to add:

* an `unsubscribe` reaches Redis while the channel has no subscriber, and no `subscribe` to it that
  Redis has executed waits to go on;
* it goes on while the channel still has no subscriber;
* the queue of a strategy is dropped while no `subscribe` of it waits. -/
def Careful (x : PubSubRun) : PubSubStep → Prop
  | .unsubscribe c s =>
    ¬ x.Awaits c s → (x.manager.unregister c s).strategyChannels s = [] → x.NoneWaits s
  | .send i => ∀ c s, x.calls[i]? = some (.unsubscribe c s false) →
    x.manager.subscribers c = [] ∧ ∀ s' q, .subscribe c s' q true ∉ x.calls
  | .resume i => ∀ c s, x.calls[i]? = some (.unsubscribe c s true) →
    x.manager.subscribers c = [] ∧ (x.manager.strategyChannels s = [] → x.NoneWaits s)
  | _ => True

namespace Registered

variable {x : PubSubRun}

lemma startSubscribe (h : Registered x) (c s : String) : Registered (x.startSubscribe c s) := by
  obtain ⟨hqueue, q, hq⟩ := h.withQueue s
  unfold PubSubRun.startSubscribe
  dsimp only
  rw [hq]
  split
  · split
    · have hredis := hqueue.redisSubscribe c
      exact hredis.subscribed hq ((mem_setAdd _ _ _).mpr (.inr rfl))
    · rename_i hinline
      refine (hqueue.connected true).withCalls (fun c' s' q' sent hmem => ?_) fun h => absurd h hinline
      rcases List.mem_append.mp hmem with hold | hnew
      · exact hqueue.pending c' s' q' sent hold
      · cases List.mem_singleton.mp hnew
        exact ⟨hq, fun hsent => absurd hsent Bool.false_ne_true⟩
  · rename_i hne
    obtain ⟨s', hs'⟩ := List.exists_mem_of_ne_nil _ hne
    exact hqueue.subscribed hq (hqueue.redis c s' hs')

lemma startUnsubscribe (h : Registered x) {c s : String} (hcareful : x.Careful (.unsubscribe c s)) :
    Registered (x.startUnsubscribe c s) := by
  have hremoved := h.unregister c s
  unfold PubSubRun.startUnsubscribe
  dsimp only
  split
  · rename_i hawaits
    refine hremoved.withCalls (fun c' s' q sent hmem => ?_) fun hinline => ?_
    · rcases List.mem_append.mp hmem with hold | hnew
      · exact h.pending c' s' q sent hold
      · cases List.mem_singleton.mp hnew
    · cases hinline.symm.trans hawaits.2.2
  · rename_i hawaits
    have hidle := hcareful hawaits
    split
    · rename_i hnone
      split
      · -- without an await Redis is told at once, and no other call is in progress
        rename_i hconnected
        have hinline : x.manager.inline = true := by
          by_contra hne
          exact hawaits ⟨hnone, hconnected, Bool.not_eq_true _ ▸ hne⟩
        have hcalls := h.alone hinline
        have hredis := hremoved.redisUnsubscribe hnone fun s' q hmem => by
          have hmem' : PubSubCall.subscribe c s' q true ∈ x.calls := hmem
          rw [hcalls] at hmem'
          exact List.not_mem_nil hmem'
        exact (hredis.popChannel hnone).popIdle hidle
      · exact (hremoved.popChannel hnone).popIdle hidle
    · exact hremoved.popIdle hidle

lemma ne_nil_of_call (h : Registered x) {i : ℕ} {call : PubSubCall} (hcall : x.calls[i]? = some call)
    (hinline : x.manager.inline = true) : False := by
  rw [h.alone hinline] at hcall
  cases hcall

lemma send (h : Registered x) {i : ℕ} (hcareful : x.Careful (.send i)) : Registered (x.send i) := by
  unfold PubSubRun.send
  split
  · rename_i c s q hcall
    have hredis := h.redisSubscribe c
    refine hredis.withCalls (fun c' s' q' sent hmem => ?_) fun hinline => (h.ne_nil_of_call hcall hinline).elim
    rcases List.mem_or_eq_of_mem_set hmem with hold | hnew
    · exact hredis.pending c' s' q' sent hold
    · cases hnew
      exact ⟨(h.pending c s q false (List.mem_of_getElem? hcall)).1,
        fun _ => (mem_setAdd _ _ _).mpr (.inr rfl)⟩
  · rename_i c s hcall
    obtain ⟨hnone, hcalls⟩ := hcareful c s hcall
    have hredis := h.redisUnsubscribe hnone hcalls
    refine hredis.withCalls (fun c' s' q' sent hmem => ?_) fun hinline => (h.ne_nil_of_call hcall hinline).elim
    rcases List.mem_or_eq_of_mem_set hmem with hold | hnew
    · exact hredis.pending c' s' q' sent hold
    · cases hnew
  · exact h

lemma withoutCall (h : Registered x) (i : ℕ) : Registered { x with calls := x.calls.eraseIdx i } := by
  refine h.withCalls (fun c s q sent hmem => h.pending c s q sent (List.mem_of_mem_eraseIdx hmem))
    fun hinline => ?_
  rw [h.alone hinline]
  rfl

lemma resume (h : Registered x) {i : ℕ} (hcareful : x.Careful (.resume i)) : Registered (x.resume i) := by
  have hrest := h.withoutCall i
  unfold PubSubRun.resume
  split
  · rename_i c s q hcall
    obtain ⟨hq, hsent⟩ := h.pending c s q true (List.mem_of_getElem? hcall)
    exact hrest.subscribed hq (hsent rfl)
  · rename_i c s hcall
    obtain ⟨hnone, hidle⟩ := hcareful c s hcall
    refine (hrest.popChannel hnone).popIdle fun hempty c' q sent hmem => ?_
    exact hidle hempty c' q sent (List.mem_of_mem_eraseIdx hmem)
  · exact h

lemma step (h : Registered x) {a : PubSubStep} (hcareful : x.Careful a) : Registered (x.step a) := by
  cases a with
  | subscribe c s => exact h.startSubscribe c s
  | unsubscribe c s => exact h.startUnsubscribe hcareful
  | send i => exact h.send hcareful
  | resume i => exact h.resume hcareful
  | fail i => exact h.withoutCall i

end Registered

end PubSubRun

/-! ## Messages -/

namespace PubSub

lemma deliver_queues (m : PubSub) (event : DataEvent) (s : String) (q : ℕ) :
    (m.deliver event s q).queues = m.queues ∧ (m.deliver event s q).queueMaxsize = m.queueMaxsize ∧
      (m.deliver event s q).contents =
        Function.update m.contents q (offer DataEvent.kind m.queueMaxsize (m.contents q) event).1 := by
  unfold deliver
  obtain ⟨queue, offered⟩ := offer DataEvent.kind m.queueMaxsize (m.contents q) event
  cases offered <;> exact ⟨rfl, rfl, rfl⟩

/-- When every subscriber has a queue of its own, the loop ends without an error, and has offered the
event to these queues and no others. -/
lemma deliverAll_spec (event : DataEvent) (l : List String) (m : PubSub)
    (hqueue : ∀ s ∈ l, ∃ q, m.queues s = some q) (hnodup : l.Nodup)
    (hown : ∀ s s' q, m.queues s = some q → m.queues s' = some q → s = s') :
    (deliverAll event l m).1 = .ok () ∧
      (∀ s ∈ l, ∀ q, m.queues s = some q →
        (deliverAll event l m).2.contents q = (offer DataEvent.kind m.queueMaxsize (m.contents q) event).1) ∧
      ∀ q, (∀ s ∈ l, m.queues s ≠ some q) → (deliverAll event l m).2.contents q = m.contents q := by
  induction l generalizing m with
  | nil => exact ⟨rfl, fun s hs => absurd hs List.not_mem_nil, fun q _ => rfl⟩
  | cons s rest ih =>
    obtain ⟨q, hq⟩ := hqueue s List.mem_cons_self
    obtain ⟨hs, hrest⟩ := List.nodup_cons.mp hnodup
    obtain ⟨hqueues, hmaxsize, hcontents⟩ := deliver_queues m event s q
    have hstep : deliverAll event (s :: rest) m = deliverAll event rest (m.deliver event s q) := by
      rw [deliverAll, hq]
    obtain ⟨hok, hoffered, hothers⟩ := ih (m.deliver event s q)
      (fun s' hs' => by rw [hqueues]; exact hqueue s' (List.mem_cons_of_mem s hs')) hrest
      (by rw [hqueues]; exact hown)
    rw [hqueues, hmaxsize, hcontents] at hoffered
    rw [hqueues, hcontents] at hothers
    rw [hstep]
    refine ⟨hok, fun s' hs' q' hq' => ?_, fun q' hq' => ?_⟩
    · rcases List.mem_cons.mp hs' with rfl | hs'
      · have hqq : q = q' := Option.some.inj (hq.symm.trans hq')
        subst hqq
        have hrestQueue : ∀ s'' ∈ rest, m.queues s'' ≠ some q := by
          intro s'' hs'' heq
          exact hs (hown s' s'' q hq heq ▸ hs'')
        rw [hothers q hrestQueue, Function.update_self]
      · have hne : q' ≠ q := by
          rintro rfl
          exact hs (hown s s' q' hq hq' ▸ hs')
        rw [hoffered s' hs' q' hq', Function.update_of_ne hne]
    · have hne : q' ≠ q := by
        rintro rfl
        exact hq' s List.mem_cons_self hq
      rw [hothers q' fun s'' hs'' => hq' s'' (List.mem_cons_of_mem s hs''), Function.update_of_ne hne]

end PubSub

/-! ## Runs -/

namespace PubSubRun

/-- The registry is consistent: the maps agree, a subscriber has the queue its call returned, Redis
sends what is subscribed to, and a message goes to every subscriber of its channel. -/
structure Consistent (x : PubSubRun) : Prop where
  agree : ∀ c s, s ∈ x.manager.subscribers c ↔ c ∈ x.manager.strategyChannels s
  queue : ∀ c s, s ∈ x.manager.subscribers c →
    ∃ q, x.manager.queues s = some q ∧ x.returned c s = some q
  redis : ∀ c, x.manager.subscribers c ≠ [] → c ∈ x.manager.channels
  handled : ∀ c payload, (x.manager.handleMessage c payload).1 = .ok ()
  delivered : ∀ c payload, ∀ s ∈ x.manager.subscribers c, ∀ q, x.manager.queues s = some q →
    (x.manager.handleMessage c payload).2.contents q =
      (offer DataEvent.kind x.manager.queueMaxsize (x.manager.contents q)
        (eventFromPayload c payload)).1

lemma Registered.consistent {x : PubSubRun} (h : Registered x) : Consistent x := by
  have hdeliver : ∀ c payload, _ := fun c payload =>
    PubSub.deliverAll_spec (eventFromPayload c payload) (x.manager.subscribers c) x.manager
      (fun s hs => (h.queue c s hs).imp fun q hq => hq.1) (h.nodup c) h.own
  refine ⟨h.agree, h.queue, fun c hne => ?_, fun c payload => (hdeliver c payload).1,
    fun c payload => (hdeliver c payload).2.1⟩
  obtain ⟨s, hs⟩ := List.exists_mem_of_ne_nil _ hne
  exact h.redis c s hs

/-- All steps of a run are careful. -/
def AllCareful : PubSubRun → List PubSubStep → Prop
  | _, [] => True
  | x, a :: l => x.Careful a ∧ AllCareful (x.step a) l

lemma Registered.steps {x : PubSubRun} (h : Registered x) {l : List PubSubStep}
    (hcareful : x.AllCareful l) : Registered (x.steps l) := by
  induction l generalizing x with
  | nil => exact h
  | cons a l ih => exact ih (h.step hcareful.1) hcareful.2

/-- In a run of careful steps the registry is consistent, even while calls are in progress. -/
theorem consistent_of_careful (inline : Bool) (queueMaxsize : ℤ) (l : List PubSubStep)
    (h : (init inline queueMaxsize).AllCareful l) :
    ((init inline queueMaxsize).steps l).Consistent :=
  ((Registered.init inline queueMaxsize).steps h).consistent

/-- A strategy comes and goes. -/
theorem consistent_of_careful_visit :
    ((init false 1000).steps [.subscribe "kline:binance:1h" "a", .send 0, .resume 0,
      .unsubscribe "kline:binance:1h" "a", .send 0, .resume 0]).Consistent := by
  refine consistent_of_careful false 1000 _ ⟨trivial, ?_, ?_, ?_, ?_, ?_, trivial⟩
  · intro c s hcall
    cases hcall
  · intro c s hcall
    cases hcall
  · intro hawaits
    exact absurd (by decide +kernel) hawaits
  · intro c s hcall
    cases hcall
    exact ⟨rfl, fun s' q hmem => by cases List.mem_singleton.mp hmem⟩
  · intro c s hcall
    cases hcall
    exact ⟨rfl, fun _ c q sent hmem => by cases List.mem_singleton.mp hmem⟩

/-- An `unsubscribe` that Redis executes while the channel has a subscriber leaves it without events. -/
theorem inconsistent_of_send {x : PubSubRun} {i : ℕ} {c s : String}
    (hcall : x.calls[i]? = some (.unsubscribe c s false)) (hne : x.manager.subscribers c ≠ []) :
    ¬ (x.send i).Consistent := by
  intro h
  have hredis := h.redis c
  unfold send at hredis
  rw [hcall] at hredis
  exact ((mem_setDiscard _ _ _).mp (hredis hne)).2 rfl

/-- One that goes on then takes the channel from its subscriber, which keeps it on its own list. -/
theorem inconsistent_of_resume {x : PubSubRun} (hx : x.Registered) {i : ℕ} {c s : String}
    (hcall : x.calls[i]? = some (.unsubscribe c s true)) (hne : x.manager.subscribers c ≠ []) :
    ¬ (x.resume i).Consistent := by
  intro h
  obtain ⟨s', hs'⟩ := List.exists_mem_of_ne_nil _ hne
  have hchannel := (hx.agree c s').mp hs'
  have hagree := h.agree c s'
  unfold resume at hagree
  rw [hcall] at hagree
  have hmaps : ((x.manager.popChannel c).popIdle s).strategyChannels = x.manager.strategyChannels ∧
      ((x.manager.popChannel c).popIdle s).subscribers = (x.manager.popChannel c).subscribers := by
    unfold PubSub.popIdle
    split <;> exact ⟨rfl, rfl⟩
  dsimp only at hagree
  rw [hmaps.1, hmaps.2, PubSub.mem_popChannel_subscribers] at hagree
  exact (hagree.mpr hchannel).2 rfl

/-- Two strategies share a channel, one after the other. -/
def handover : List PubSubStep :=
  [.subscribe "kline:binance:1h" "a", .send 0, .resume 0, .unsubscribe "kline:binance:1h" "a",
    .subscribe "kline:binance:1h" "b", .send 0, .send 1, .resume 1, .resume 0]

/-- The `subscribe` of the second starts while the first one's `unsubscribe` waits for Redis, and ends
before: the second strategy has the channel, but the channel not the strategy. -/
theorem handover_inconsistent : ¬ ∀ (inline : Bool) (queueMaxsize : ℤ) (l : List PubSubStep),
    ((init inline queueMaxsize).steps l).calls = [] →
      ((init inline queueMaxsize).steps l).Consistent := by
  intro h
  have hcalls : ((init false 1000).steps handover).calls = [] := by decide +kernel
  have hsubscribers : "b" ∉ ((init false 1000).steps handover).manager.subscribers "kline:binance:1h" := by
    decide +kernel
  have hchannels :
      "kline:binance:1h" ∈ ((init false 1000).steps handover).manager.strategyChannels "b" := by
    decide +kernel
  exact hsubscribers (((h false 1000 handover hcalls).agree _ _).mpr hchannels)

end PubSubRun

end PaperTrade.Runner
