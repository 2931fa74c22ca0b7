import PaperTrade.Runner.Dispatcher

/-!
# The remembered ids and their list in Redis

The dispatcher keeps its remembered ids with the oldest first, and Redis keeps them with the newest first.
Both are cut to `max_seen`, the one by `popitem` at its front and the other by `ltrim` at its end. As long
as Redis works the list is the window in reverse, so a dispatcher that is built on it remembers the same ids
in the same order.
-/

namespace PaperTrade.Runner.Dispatcher

open PaperTrade.Runtime

/-- Redis takes the pipeline of the dispatch, or answers the new process. -/
def Event.Served : Event → Prop
  | .dispatch env _ => env.pipeline = .executed
  | .restart ok => ok = true

instance : (e : Event) → Decidable e.Served
  | .dispatch env _ => inferInstanceAs (Decidable (env.pipeline = .executed))
  | .restart ok => inferInstanceAs (Decidable (ok = true))

/-- The list in Redis is the window in reverse. -/
structure Mirrored (d : Dispatcher) : Prop where
  reversed : d.seen = d.dedup.reverse
  nodup : d.dedup.Nodup
  bounded : d.dedup.length ≤ d.maxSeen

/-! ## What a restart restores -/

lemma lrange_of_length_le {n : ℕ} {l : List String} (h : l.length ≤ n) : lrange n l = l := by
  unfold lrange
  split
  · rfl
  · exact List.take_of_length_le h

/-- Ids that are all new are appended one after another. -/
lemma foldl_touch_of_nodup {l seen : List String} (h : (seen ++ l).Nodup) :
    l.foldl touch seen = seen ++ l := by
  induction l generalizing seen with
  | nil => exact (List.append_nil seen).symm
  | cons x l ih =>
    have hnew : x ∉ seen := by
      have hdisjoint := List.disjoint_of_nodup_append h
      exact fun hx => hdisjoint hx List.mem_cons_self
    have hsplit : seen ++ x :: l = seen ++ [x] ++ l := by simp
    rw [List.foldl_cons, touch, if_neg hnew, hsplit]
    rw [hsplit] at h
    exact ih h

lemma Mirrored.restoreSeen_eq {d : Dispatcher} (h : Mirrored d) : d.restoreSeen true = d.seen := by
  have hnodup : d.dedup.reverse.Nodup := List.nodup_reverse.mpr h.nodup
  unfold restoreSeen
  rw [if_pos rfl, lrange_of_length_le h.bounded, h.reversed]
  exact foldl_touch_of_nodup hnodup

/-! ## Runs -/

/-- A new id goes to the end of the window and to the front of the list, and both are cut to the same
length. -/
lemma mirrored_remember {d : Dispatcher} (hmax : 0 < d.maxSeen) (h : Mirrored d) {id : String}
    (hnew : id ∉ d.seen) : Mirrored (d.remember .executed id) := by
  have hlist : (d.remember .executed id).dedup = (id :: d.dedup).take d.maxSeen := if_neg hmax.ne'
  have hfresh : id ∉ d.dedup := by
    rw [h.reversed] at hnew
    simpa using hnew
  refine ⟨?_, ?_, ?_⟩
  · show (d.seen.erase id ++ [id]).drop ((d.seen.erase id ++ [id]).length - d.maxSeen) = _
    have hwindow : d.seen ++ [id] = (id :: d.dedup).reverse := by
      rw [h.reversed, List.reverse_cons]
    rw [hlist, List.erase_of_not_mem hnew, hwindow, List.length_reverse, List.reverse_take]
  · rw [hlist]
    exact (List.nodup_cons.mpr ⟨hfresh, h.nodup⟩).sublist (List.take_sublist _ _)
  · rw [hlist]
    exact List.length_take_le _ _

lemma mirrored_step {digest : Logical → String} {d : Dispatcher} (hmax : 0 < d.maxSeen) (h : Mirrored d)
    {e : Event} (he : e.Served) : Mirrored (d.step digest e) := by
  cases e with
  | restart ok =>
    have hok : ok = true := he
    have hsame : d.restoreSeen ok = d.seen := by rw [hok, h.restoreSeen_eq]
    exact ⟨hsame.trans h.reversed, h.nodup, h.bounded⟩
  | dispatch env call =>
    have hpipeline : env.pipeline = .executed := he
    show Mirrored (d.dispatch digest env call).2
    rcases dispatch_cases digest d env call with ⟨-, heq⟩ | ⟨-, -, heq⟩ | ⟨-, hnew, -, heq⟩ |
      ⟨-, hnew, -, r, -, -, heq⟩
    · rw [heq]
      exact h
    · rw [heq]
      exact h
    · rw [heq, hpipeline]
      exact mirrored_remember hmax h hnew
    · -- the appended message is neither in the window nor in the list
      rw [heq, hpipeline]
      obtain ⟨hreversed, hnodup, hbounded⟩ := mirrored_remember hmax h hnew
      exact ⟨hreversed, hnodup, hbounded⟩

lemma maxSeen_step (digest : Logical → String) (d : Dispatcher) (e : Event) :
    (d.step digest e).maxSeen = d.maxSeen := by
  cases e with
  | restart ok => rfl
  | dispatch env call =>
    show (d.dispatch digest env call).2.maxSeen = d.maxSeen
    rcases dispatch_cases digest d env call with ⟨-, heq⟩ | ⟨-, -, heq⟩ | ⟨-, -, -, heq⟩ |
      ⟨-, -, -, r, -, -, heq⟩ <;> rw [heq] <;> rfl

lemma mirrored_run {digest : Logical → String} {d : Dispatcher} (hmax : 0 < d.maxSeen) (h : Mirrored d)
    {events : List Event} (hserved : ∀ e ∈ events, e.Served) : Mirrored (d.run digest events) := by
  induction events generalizing d with
  | nil => exact h
  | cons e events ih =>
    have hstep : Mirrored (d.step digest e) := mirrored_step hmax h (hserved e List.mem_cons_self)
    refine ih ?_ hstep fun e' he' => hserved e' (List.mem_cons_of_mem _ he')
    rw [maxSeen_step]
    exact hmax

/-- At any point of a run of dispatches and restarts, a new process restores the window of the running
one. -/
theorem restoreSeen_run (digest : Logical → String) {maxSeen : ℕ} (hmax : 0 < maxSeen) {events : List Event}
    (hserved : ∀ e ∈ events, e.Served) :
    (Dispatcher.run digest { maxSeen := maxSeen } events).restoreSeen true =
      (Dispatcher.run digest { maxSeen := maxSeen } events).seen :=
  (mirrored_run hmax ⟨rfl, List.nodup_nil, Nat.zero_le _⟩ hserved).restoreSeen_eq

/-- Signals of three kinds through a window of two, a restart, and the first one again. -/
def crossingTheLimit : List Event :=
  [.dispatch { now := "t0" } { closeCall with type := "OPEN" }, .dispatch { now := "t1" } closeCall,
    .dispatch { now := "t2" } { closeCall with type := "MODIFY" }, .restart true,
    .dispatch { now := "t3" } { closeCall with type := "OPEN" }]

theorem restoreSeen_crossingTheLimit :
    (Dispatcher.run typeDigest { maxSeen := 2 } crossingTheLimit).restoreSeen true =
      (Dispatcher.run typeDigest { maxSeen := 2 } crossingTheLimit).seen :=
  restoreSeen_run typeDigest (by decide) (by decide)

end PaperTrade.Runner.Dispatcher
