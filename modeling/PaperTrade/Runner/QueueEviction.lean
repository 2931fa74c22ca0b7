import PaperTrade.Runner.PubSubRegistry

/-!
# Klines in a strategy's queue

`handle_message` offers events to the queue of a strategy, which takes them off in order. A full queue
makes room for a kline by dropping its oldest event, whatever that is: the newest kline of another
timeframe, if it is the oldest event left.

A `QueueLog` is a queue with its history; events are numbered in the order in which they arrive.
-/

namespace PaperTrade.Runner

open PaperTrade.Runtime

/-- A queue, the events that were offered to it, and the numbers of those that were taken off. -/
structure QueueLog where
  maxsize : ℤ
  queue : List (ℕ × DataEvent)
  arrived : List DataEvent
  delivered : List ℕ

/-- An event arrives, or `await queue.get()` returns. -/
inductive QueueStep
  | arrive (event : DataEvent)
  | get

namespace QueueLog

/-- A new queue. -/
def init (maxsize : ℤ) : QueueLog := ⟨maxsize, [], [], []⟩

/-- `handle_message` offers an event. -/
def arrive (x : QueueLog) (event : DataEvent) : QueueLog :=
  { x with
    queue := (offer (fun e => e.2.kind) x.maxsize x.queue (x.arrived.length, event)).1
    arrived := x.arrived ++ [event] }

/-- `await queue.get()`, which waits at an empty queue. -/
def get (x : QueueLog) : QueueLog :=
  match x.queue with
  | [] => x
  | e :: rest => { x with queue := rest, delivered := x.delivered ++ [e.1] }

/-- One step. -/
def step (x : QueueLog) : QueueStep → QueueLog
  | .arrive event => x.arrive event
  | .get => x.get

/-- A run. -/
def run (x : QueueLog) (l : List QueueStep) : QueueLog := l.foldl step x

/-- Without the numbers it is the queue of `handle_message`. -/
lemma offer_map (maxsize : ℤ) (queue : List (ℕ × DataEvent)) (e : ℕ × DataEvent) :
    (offer (fun e => e.2.kind) maxsize queue e).1.map Prod.snd =
      (offer DataEvent.kind maxsize (queue.map Prod.snd) e.2).1 := by
  have hfull : ∀ q : List (ℕ × DataEvent), isFull maxsize (q.map Prod.snd) ↔ isFull maxsize q := by
    intro q
    unfold isFull
    rw [List.length_map]
  unfold offer
  simp only [hfull, ← List.map_tail]
  split <;> [skip; split <;> [split; skip]] <;> simp

/-- The queue of a subscriber in the manager goes the way of the log. -/
theorem arrive_handleMessage {m : PubSubRun} (hm : m.Registered) {c s : String} {q : ℕ}
    (hs : s ∈ m.manager.subscribers c) (hq : m.manager.queues s = some q) {x : QueueLog}
    (hsize : x.maxsize = m.manager.queueMaxsize)
    (hx : x.queue.map Prod.snd = m.manager.contents q) (payload : Entries) :
    (x.arrive (eventFromPayload c payload)).queue.map Prod.snd =
      (m.manager.handleMessage c payload).2.contents q := by
  rw [hm.consistent.delivered c payload s hs q hq, ← hsize, ← hx]
  exact offer_map x.maxsize x.queue _

/-! ## The newest klines -/

/-- A kline of the timeframe. -/
def IsKline (tf : String) (e : DataEvent) : Prop := e.kind = .kline ∧ e.tf = tf

instance (tf : String) (e : DataEvent) : Decidable (IsKline tf e) := inferInstanceAs (Decidable (_ ∧ _))

/-- Event `n` is the newest kline of the timeframe. -/
def Newest (arrived : List DataEvent) (tf : String) (n : ℕ) : Prop :=
  (∃ e, arrived[n]? = some e ∧ IsKline tf e) ∧
    ∀ m e, n < m → arrived[m]? = some e → ¬ IsKline tf e

/-- The newest kline of every timeframe has been delivered, or is in the queue, which keeps to its
size. -/
structure Kept (x : QueueLog) : Prop where
  size : 0 < x.maxsize → x.queue.length ≤ x.maxsize
  newest : ∀ tf n, Newest x.arrived tf n → n ∈ x.delivered ∨ ∃ e, (n, e) ∈ x.queue

/-- A kline that arrives at a full queue does not cost another timeframe its newest kline: the oldest
event is no kline, or there is a newer one of its timeframe. -/
def Spares (x : QueueLog) : QueueStep → Prop
  | .arrive event => isFull x.maxsize x.queue → event.kind = .kline →
    ∀ e ∈ x.queue.head?, e.2.kind = .kline →
      event.tf = e.2.tf ∨ ∃ e' ∈ x.queue.tail, IsKline e.2.tf e'.2
  | .get => True

/-- Every step of the run spares the newest klines. -/
def AllSpared : QueueLog → List QueueStep → Prop
  | _, [] => True
  | x, a :: l => x.Spares a ∧ AllSpared (x.step a) l

/-- The events of the queue are in order, and those before them have gone. -/
structure Ordered (x : QueueLog) : Prop where
  size : 0 < x.maxsize → x.queue.length ≤ x.maxsize
  sorted : x.queue.Pairwise fun e e' => e.1 < e'.1
  arrived : ∀ e ∈ x.queue, x.arrived[e.1]? = some e.2
  delivered : ∀ n ∈ x.delivered, ∀ e ∈ x.queue, n < e.1
  old : ∀ n ∈ x.delivered, n < x.arrived.length

/-! ## One step -/

section Step

variable {x : QueueLog} {event : DataEvent}

variable (event) in
/-- What `offer` does to a queue that keeps to its size. -/
lemma offer_cases (hsize : 0 < x.maxsize → x.queue.length ≤ x.maxsize) (n : ℕ) :
    (¬ isFull x.maxsize x.queue ∧
        (offer (fun e => e.2.kind) x.maxsize x.queue (n, event)).1 = x.queue ++ [(n, event)]) ∨
      (isFull x.maxsize x.queue ∧ event.kind = .kline ∧
        (offer (fun e => e.2.kind) x.maxsize x.queue (n, event)).1 = x.queue.tail ++ [(n, event)]) ∨
      (isFull x.maxsize x.queue ∧ event.kind ≠ .kline ∧
        (offer (fun e => e.2.kind) x.maxsize x.queue (n, event)).1 = x.queue) := by
  unfold offer
  by_cases hfull : isFull x.maxsize x.queue
  · by_cases hkline : event.kind = .kline
    · have htail : ¬ isFull x.maxsize x.queue.tail := by
        intro h
        have hle := hsize hfull.1
        have hge := h.2
        have hpos := hfull.1
        rw [List.length_tail] at hge
        omega
      exact .inr (.inl ⟨hfull, hkline, by simp [hfull, hkline, htail]⟩)
    · exact .inr (.inr ⟨hfull, hkline, by simp [hfull, hkline]⟩)
  · exact .inl ⟨hfull, by simp [hfull]⟩

lemma Ordered.lt_length (h : Ordered x) {e : ℕ × DataEvent} (he : e ∈ x.queue) :
    e.1 < x.arrived.length := by
  by_contra hge
  have hnone := List.getElem?_eq_none (not_lt.mp hge)
  rw [h.arrived e he] at hnone
  cases hnone

lemma Ordered.arrive (h : Ordered x) (event : DataEvent) : Ordered (x.arrive event) := by
  have hcases := offer_cases event h.size x.arrived.length
  have hsub : ((offer (fun e => e.2.kind) x.maxsize x.queue (x.arrived.length, event)).1).Sublist
      (x.queue ++ [(x.arrived.length, event)]) := by
    rcases hcases with ⟨-, hq⟩ | ⟨-, -, hq⟩ | ⟨-, -, hq⟩ <;> rw [hq]
    · exact (List.tail_sublist _).append (List.Sublist.refl _)
    · exact List.sublist_append_left _ _
  have hmem : ∀ e ∈ (offer (fun e => e.2.kind) x.maxsize x.queue (x.arrived.length, event)).1,
      e ∈ x.queue ∨ e = (x.arrived.length, event) := by
    intro e he
    exact (List.mem_append.mp (hsub.subset he)).imp_right List.mem_singleton.mp
  refine ⟨fun hpos => ?_, ?_, fun e he => ?_, fun n hn e he => ?_, fun n hn => ?_⟩
  · show ((offer _ x.maxsize x.queue _).1.length : ℤ) ≤ x.maxsize
    have hmax : 0 < x.maxsize := hpos
    have hsize := h.size hmax
    rcases hcases with ⟨hfull, hq⟩ | ⟨hfull, -, hq⟩ | ⟨-, -, hq⟩ <;> rw [hq]
    · have hlt : ¬ x.maxsize ≤ x.queue.length := fun hle => hfull ⟨hmax, hle⟩
      rw [List.length_append, List.length_singleton]
      push_cast
      omega
    · have hge := hfull.2
      rw [List.length_append, List.length_singleton, List.length_tail]
      omega
    · exact hsize
  · refine List.Pairwise.sublist hsub (List.pairwise_append.mpr ⟨h.sorted, List.pairwise_singleton _ _, ?_⟩)
    intro e he e' he'
    rw [List.mem_singleton.mp he']
    exact h.lt_length he
  · rcases hmem e he with hold | rfl
    · exact (List.getElem?_append_left (h.lt_length hold)).trans (h.arrived e hold)
    · exact List.getElem?_concat_length
  · rcases hmem e he with hold | rfl
    · exact h.delivered n hn e hold
    · exact h.old n hn
  · have hlt := h.old n hn
    show n < (x.arrived ++ [event]).length
    rw [List.length_append]
    omega

lemma Ordered.get (h : Ordered x) : Ordered x.get := by
  unfold QueueLog.get
  split
  · exact h
  · rename_i e rest hq
    obtain ⟨hsize, hsorted, harrived, hdelivered, hold⟩ := h
    rw [hq] at hsize hsorted harrived hdelivered
    obtain ⟨hfirst, hrest⟩ := List.pairwise_cons.mp hsorted
    refine ⟨fun hpos => ?_, hrest, fun e' he' => harrived e' (List.mem_cons_of_mem e he'), ?_, ?_⟩
    · have hle := hsize hpos
      rw [List.length_cons] at hle
      push_cast at hle
      show (rest.length : ℤ) ≤ x.maxsize
      omega
    · intro n hn e' he'
      rcases List.mem_append.mp hn with hn | hn
      · exact hdelivered n hn e' (List.mem_cons_of_mem e he')
      · rw [List.mem_singleton.mp hn]
        exact hfirst e' he'
    · intro n hn
      rcases List.mem_append.mp hn with hn | hn
      · exact hold n hn
      · rw [List.mem_singleton.mp hn]
        have hsome := harrived e List.mem_cons_self
        exact (List.getElem?_eq_some_iff.mp hsome).1

lemma Ordered.step (h : Ordered x) (a : QueueStep) : Ordered (x.step a) := by
  cases a with
  | arrive event => exact h.arrive event
  | get => exact h.get

/-! ## The newest klines of a run -/

lemma newest_append_of_not {arrived : List DataEvent} {tf : String} (h : ¬ IsKline tf event) (n : ℕ) :
    Newest (arrived ++ [event]) tf n ↔ Newest arrived tf n := by
  have hget : ∀ (m : ℕ) (e : DataEvent), (arrived ++ [event])[m]? = some e ∧ IsKline tf e ↔
      arrived[m]? = some e ∧ IsKline tf e := by
    intro m e
    refine and_congr_left fun hkline => ?_
    by_cases hm : m < arrived.length
    · rw [List.getElem?_append_left hm]
    · have hle : arrived.length ≤ m := not_lt.mp hm
      rw [List.getElem?_eq_none hle, List.getElem?_append_right hle]
      refine iff_of_false (fun hsome => ?_) fun hsome => by cases hsome
      exact h (List.mem_singleton.mp (List.mem_of_getElem? hsome) ▸ hkline)
  unfold Newest
  refine and_congr (exists_congr fun e => hget n e) (forall_congr' fun m => forall_congr' fun e => ?_)
  refine imp_congr_right fun _ => ?_
  have := hget m e
  tauto

lemma newest_append_of_kline {arrived : List DataEvent} {tf : String} (h : IsKline tf event) (n : ℕ) :
    Newest (arrived ++ [event]) tf n ↔ n = arrived.length := by
  have hlast : (arrived ++ [event])[arrived.length]? = some event := List.getElem?_concat_length
  constructor
  · rintro ⟨⟨e, he, -⟩, hnewest⟩
    have hlt : n < (arrived ++ [event]).length := (List.getElem?_eq_some_iff.mp he).1
    rw [List.length_append, List.length_singleton] at hlt
    by_contra hne
    exact hnewest arrived.length event (by omega) hlast h
  · rintro rfl
    refine ⟨⟨event, hlast, h⟩, fun m e hm he => ?_⟩
    have hlt : m < (arrived ++ [event]).length := (List.getElem?_eq_some_iff.mp he).1
    rw [List.length_append, List.length_singleton] at hlt
    omega

/-- A kline has a newest one of its timeframe. -/
lemma exists_newest {arrived : List DataEvent} {tf : String} {n : ℕ} {e : DataEvent}
    (he : arrived[n]? = some e) (hkline : IsKline tf e) : ∃ m, n ≤ m ∧ Newest arrived tf m := by
  induction arrived using List.reverseRecOn with
  | nil => cases he
  | append_singleton arrived event ih =>
    by_cases hlast : IsKline tf event
    · refine ⟨arrived.length, ?_, (newest_append_of_kline hlast _).mpr rfl⟩
      have hlt : n < (arrived ++ [event]).length := (List.getElem?_eq_some_iff.mp he).1
      rw [List.length_append, List.length_singleton] at hlt
      omega
    · have hold : arrived[n]? = some e := by
        by_cases hn : n < arrived.length
        · rwa [List.getElem?_append_left hn] at he
        · rw [List.getElem?_append_right (not_lt.mp hn)] at he
          exact absurd (List.mem_singleton.mp (List.mem_of_getElem? he) ▸ hkline) hlast
      obtain ⟨m, hm, hnewest⟩ := ih hold
      exact ⟨m, hm, (newest_append_of_not hlast m).mpr hnewest⟩

lemma Kept.get (h : Kept x) (hordered : Ordered x) : Kept x.get := by
  refine ⟨hordered.get.size, fun tf n hnewest => ?_⟩
  unfold QueueLog.get at hnewest ⊢
  split at hnewest
  · rename_i hq
    exact h.newest tf n hnewest
  · rename_i e rest hq
    rcases h.newest tf n hnewest with hn | ⟨e', he'⟩
    · exact .inl (List.mem_append_left _ hn)
    · rw [hq] at he'
      rcases List.mem_cons.mp he' with rfl | he'
      · exact .inl (List.mem_append_right _ (List.mem_singleton_self _))
      · exact .inr ⟨e', he'⟩

/-- A kline of the timeframe that is still in the queue has the newest one behind it or is it. -/
lemma Kept.newest_of_head (h : Kept x) (hordered : Ordered x) {e : ℕ × DataEvent}
    {rest : List (ℕ × DataEvent)} (hq : x.queue = e :: rest) (hkline : e.2.kind = .kline)
    (hrest : ∀ e' ∈ rest, ¬ IsKline e.2.tf e'.2) : Newest x.arrived e.2.tf e.1 := by
  have hmem : e ∈ x.queue := hq ▸ List.mem_cons_self
  obtain ⟨m, hm, hnewest⟩ := exists_newest (hordered.arrived e hmem) ⟨hkline, rfl⟩
  rcases h.newest _ m hnewest with hdelivered | ⟨e', he'⟩
  · have := hordered.delivered m hdelivered e hmem
    omega
  · have hm' := hordered.arrived _ he'
    rw [hq] at he'
    rcases List.mem_cons.mp he' with heq | he'
    · rw [← heq] at hnewest ⊢
      exact hnewest
    · obtain ⟨e'', he'', hkline'⟩ := hnewest.1
      cases hm'.symm.trans he''
      exact absurd hkline' (hrest _ he')

lemma Kept.arrive (h : Kept x) (hordered : Ordered x) (hspares : x.Spares (.arrive event)) :
    Kept (x.arrive event) := by
  have hcases := offer_cases event hordered.size x.arrived.length
  refine ⟨(hordered.arrive event).size, fun tf n hnewest => ?_⟩
  by_cases hkline : IsKline tf event
  · have hn := (newest_append_of_kline hkline n).mp hnewest
    subst hn
    refine .inr ⟨event, ?_⟩
    show _ ∈ (offer _ x.maxsize x.queue _).1
    rcases hcases with ⟨-, hq⟩ | ⟨-, -, hq⟩ | ⟨-, hne, -⟩
    · rw [hq]
      exact List.mem_append_right _ (List.mem_singleton_self _)
    · rw [hq]
      exact List.mem_append_right _ (List.mem_singleton_self _)
    · exact absurd hkline.1 hne
  · have hold := (newest_append_of_not hkline n).mp hnewest
    refine (h.newest tf n hold).imp_right fun hmem => ?_
    obtain ⟨e, he⟩ := hmem
    refine ⟨e, ?_⟩
    show _ ∈ (offer _ x.maxsize x.queue _).1
    rcases hcases with ⟨-, hq⟩ | ⟨hfull, hevent, hq⟩ | ⟨-, -, hq⟩
    · rw [hq]
      exact List.mem_append_left _ he
    · rw [hq]
      refine List.mem_append_left _ ?_
      cases hqueue : x.queue with
      | nil =>
        rw [hqueue] at he
        cases he
      | cons e' rest =>
        rw [hqueue] at he
        rcases List.mem_cons.mp he with heq | he
        · -- the evicted event is not the newest of its timeframe
          exfalso
          obtain ⟨e'', he'', htf⟩ := hold.1
          have harrived := hordered.arrived e' (hqueue ▸ List.mem_cons_self)
          rw [← heq] at harrived
          cases harrived.symm.trans he''
          have hhead : e' ∈ x.queue.head? := by rw [hqueue]; rfl
          rw [← heq] at hhead
          rcases hspares hfull hevent _ hhead htf.1 with hsame | ⟨later, hlater, hlaterTf⟩
          · exact hkline ⟨hevent, hsame.trans htf.2⟩
          · rw [hqueue] at hlater
            have hsorted := hordered.sorted
            rw [hqueue] at hsorted
            have hlt := (List.pairwise_cons.mp hsorted).1 later hlater
            rw [← heq] at hlt
            refine hold.2 later.1 later.2 hlt ?_ ?_
            · exact hordered.arrived later (hqueue ▸ List.mem_cons_of_mem e' hlater)
            · exact ⟨hlaterTf.1, hlaterTf.2.trans htf.2⟩
        · exact he
    · rw [hq]
      exact he

lemma Kept.not_arrive (h : Kept x) (hordered : Ordered x) (hspares : ¬ x.Spares (.arrive event)) :
    ¬ Kept (x.arrive event) := by
  intro hkept
  apply hspares
  intro hfull hevent e hhead hkline
  by_contra hlost
  push Not at hlost
  obtain ⟨htf, hrest⟩ := hlost
  cases hqueue : x.queue with
  | nil =>
    rw [hqueue] at hhead
    cases hhead
  | cons e' rest =>
    rw [hqueue] at hhead hrest
    cases hhead
    have hnewest := h.newest_of_head hordered hqueue hkline hrest
    have hother : ¬ IsKline e.2.tf event := fun hsame => htf hsame.2
    rcases hkept.newest _ _ ((newest_append_of_not hother e.1).mpr hnewest) with hdelivered | ⟨e', he'⟩
    · have := hordered.delivered _ hdelivered e (hqueue ▸ List.mem_cons_self)
      omega
    · have hq := (offer_cases event hordered.size x.arrived.length).resolve_left
        fun hnot => hnot.1 hfull
      have hq' := (hq.resolve_right fun hnot => hnot.2.1 hevent).2.2
      have hmem : (e.1, e') ∈ (offer (fun e => e.2.kind) x.maxsize x.queue (x.arrived.length, event)).1 :=
        he'
      rw [hq', hqueue] at hmem
      rcases List.mem_append.mp hmem with hmem | hmem
      · have hsorted := hordered.sorted
        rw [hqueue] at hsorted
        have hlt := (List.pairwise_cons.mp hsorted).1 _ hmem
        exact absurd hlt (lt_irrefl _)
      · have heq : e.1 = x.arrived.length := congrArg Prod.fst (List.mem_singleton.mp hmem)
        have hlt := hordered.lt_length (hqueue ▸ List.mem_cons_self : e ∈ x.queue)
        omega

end Step

/-! ## Runs -/

lemma init_ordered (maxsize : ℤ) : Ordered (init maxsize) where
  size hpos := hpos.le
  sorted := List.Pairwise.nil
  arrived _ he := absurd he List.not_mem_nil
  delivered _ hn := absurd hn List.not_mem_nil
  old _ hn := absurd hn List.not_mem_nil

lemma init_kept (maxsize : ℤ) : Kept (init maxsize) where
  size hpos := hpos.le
  newest tf n hnewest := by
    obtain ⟨⟨e, he, -⟩, -⟩ := hnewest
    cases he

/-- A step keeps the newest klines just when it spares them. -/
lemma kept_step_iff {x : QueueLog} (hkept : Kept x) (hordered : Ordered x) (a : QueueStep) :
    Kept (x.step a) ↔ x.Spares a := by
  cases a with
  | arrive event =>
    constructor
    · intro h
      by_contra hspares
      exact hkept.not_arrive hordered hspares h
    · exact hkept.arrive hordered
  | get => exact iff_of_true (hkept.get hordered) trivial

lemma kept_iff_allSpared {x : QueueLog} (hkept : Kept x) (hordered : Ordered x) (l : List QueueStep) :
    (∀ before after, l = before ++ after → Kept (x.run before)) ↔ x.AllSpared l := by
  induction l generalizing x with
  | nil =>
    refine iff_of_true (fun before after hl => ?_) trivial
    rw [(List.append_eq_nil_iff.mp hl.symm).1]
    exact hkept
  | cons a l ih =>
    constructor
    · intro h
      have hstep : Kept (x.step a) := h [a] l rfl
      refine ⟨(kept_step_iff hkept hordered a).mp hstep, ?_⟩
      refine (ih hstep (hordered.step a)).mp fun before after hl => ?_
      exact h (a :: before) after (by rw [hl, List.cons_append])
    · rintro ⟨hspares, hrest⟩ before after hl
      have hstep : Kept (x.step a) := (kept_step_iff hkept hordered a).mpr hspares
      cases before with
      | nil => exact hkept
      | cons b before =>
        rw [List.cons_append] at hl
        obtain ⟨rfl, hl'⟩ := List.cons.inj hl
        exact (ih hstep (hordered.step a)).mpr hrest before after hl'

/-- In every state of a run the newest kline of every timeframe has been delivered or is in the queue,
which keeps to its size, just when every step of the run spares the newest klines. -/
theorem newest_kept_iff (maxsize : ℤ) (l : List QueueStep) :
    (∀ before after, l = before ++ after → Kept ((init maxsize).run before)) ↔
      (init maxsize).AllSpared l :=
  kept_iff_allSpared (init_kept maxsize) (init_ordered maxsize) l

/-- A daily kline, and klines of a minute after it. -/
def dailyFlood : List QueueStep :=
  [.arrive (eventFromPayload "kline:binance:1d" [("symbol", .str "BTCUSDT"), ("tf", .str "1d")]),
    .arrive (eventFromPayload "kline:binance:1m" [("symbol", .str "BTCUSDT"), ("tf", .str "1m")]),
    .arrive (eventFromPayload "kline:binance:1m" [("symbol", .str "ETHUSDT"), ("tf", .str "1m")])]

/-- A queue of two loses the daily kline, of which nothing has been delivered. -/
theorem daily_kline_lost : ¬ ∀ (maxsize : ℤ) (l : List QueueStep), Kept ((init maxsize).run l) := by
  intro h
  have hkept := h 2 dailyFlood
  have hdaily : ((init 2).run dailyFlood).arrived.map (fun e => decide (IsKline "1d" e)) =
      [true, false, false] := by decide +kernel
  have hqueue : ((init 2).run dailyFlood).queue.map Prod.fst = [1, 2] := by decide +kernel
  have hdelivered : ((init 2).run dailyFlood).delivered = [] := by decide +kernel
  have hat : ∀ (m : ℕ) (e : DataEvent), ((init 2).run dailyFlood).arrived[m]? = some e →
      [true, false, false][m]? = some (decide (IsKline "1d" e)) := by
    intro m e he
    rw [← hdaily, List.getElem?_map, he]
    rfl
  have hfirst : ∃ e, ((init 2).run dailyFlood).arrived[0]? = some e := ⟨_, rfl⟩
  obtain ⟨e₀, he₀⟩ := hfirst
  have hnewest : Newest ((init 2).run dailyFlood).arrived "1d" 0 := by
    refine ⟨⟨e₀, he₀, ?_⟩, fun m e hm he hkline => ?_⟩
    · have hsome := hat 0 e₀ he₀
      simpa using hsome
    · have hsome := hat m e he
      rw [decide_eq_true hkline] at hsome
      have hcases : m = 1 ∨ m = 2 ∨ 3 ≤ m := by omega
      rcases hcases with rfl | rfl | hlarge
      · cases hsome
      · cases hsome
      · rw [List.getElem?_eq_none (by simpa using hlarge)] at hsome
        cases hsome
  rcases hkept.newest "1d" 0 hnewest with hmem | ⟨e, he⟩
  · rw [hdelivered] at hmem
    cases hmem
  · have hmem : 0 ∈ ((init 2).run dailyFlood).queue.map Prod.fst := List.mem_map_of_mem he
    rw [hqueue] at hmem
    simp at hmem

end QueueLog

end PaperTrade.Runner
