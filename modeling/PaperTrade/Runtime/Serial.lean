import PaperTrade.Runtime.Coroutine

/-!
# Serializability of two coroutines

A task `p` that takes a lock against a task `q` that does not know the lock: `interleave_serial`
says when an interleaving of the two ends as one of the two sequential orders does.

* `Moves rel q`: every operation of `q` relates the states around it by `rel`;
* `Holds locked p s`: run alone from `s`, `p` leaves the lock held at every suspension point but
  its last;
* `ReadThenLock rel locked p`: `p` reads, and what it has read stays good enough across `rel`;
  then it takes the lock and holds it to the end;
* `Undisturbed`: in this schedule no turn of `q` is taken under the lock, and `p` does not take
  the lock while `q` is under way, unless `q` has nothing left to write.
-/

namespace PaperTrade.Runtime.Coro

variable {σ ε α β : Type}

/-! ## Operations of one kind -/

/-- Every operation of the task relates the states around it by `rel`. -/
def Moves (rel : σ → σ → Prop) : Coro σ ε α → Prop
  | done _ => True
  | sync upd next => ∀ s, rel s (upd s) ∧ Moves rel (next s)
  | await upd next => ∀ s, rel s (upd s) ∧ Moves rel (next s)

section Moves

variable {rel : σ → σ → Prop}

lemma Moves.bind {p : Coro σ ε α} {k : α → Coro σ ε β} (hp : Moves rel p)
    (hk : ∀ a, Moves rel (k a)) : Moves rel (p >>= k) := by
  change Moves rel (p.bind k)
  induction p with
  | done r =>
    cases r with
    | ok a => exact hk a
    | error e => trivial
  | sync upd next ih => exact fun s => ⟨(hp s).1, ih s (hp s).2⟩
  | await upd next ih => exact fun s => ⟨(hp s).1, ih s (hp s).2⟩

lemma Moves.attempt {p : Coro σ ε α} (hp : Moves rel p) : Moves rel p.attempt := by
  induction p with
  | done r => trivial
  | sync upd next ih => exact fun s => ⟨(hp s).1, ih s (hp s).2⟩
  | await upd next ih => exact fun s => ⟨(hp s).1, ih s (hp s).2⟩

lemma Moves.tryCatch {p : Coro σ ε α} {handler : ε → Coro σ ε α} (hp : Moves rel p)
    (hh : ∀ e, Moves rel (handler e)) : Moves rel (tryCatch p handler) := by
  refine Moves.bind hp.attempt fun r => ?_
  cases r with
  | ok a => trivial
  | error e => exact hh e

lemma Moves.mono {rel' : σ → σ → Prop} (h : ∀ s s', rel s s' → rel' s s') {p : Coro σ ε α}
    (hp : Moves rel p) : Moves rel' p := by
  induction p with
  | done r => trivial
  | sync upd next ih => exact fun s => ⟨h _ _ (hp s).1, ih s (hp s).2⟩
  | await upd next ih => exact fun s => ⟨h _ _ (hp s).1, ih s (hp s).2⟩

variable (hrefl : ∀ s, rel s s) (htrans : ∀ s₁ s₂ s₃, rel s₁ s₂ → rel s₂ s₃ → rel s₁ s₃)
include hrefl htrans

lemma Moves.turn {p : Coro σ ε α} (hp : Moves rel p) (s : σ) :
    rel s (p.turn s).2 ∧ Moves rel (p.turn s).1 := by
  induction p generalizing s with
  | done r => exact ⟨hrefl s, trivial⟩
  | sync upd next ih =>
    have := ih s (hp s).2 (upd s)
    exact ⟨htrans _ _ _ (hp s).1 this.1, this.2⟩
  | await upd next ih => exact hp s

lemma Moves.run {p : Coro σ ε α} (hp : Moves rel p) (s : σ) : rel s (p.run s).2 := by
  induction p generalizing s with
  | done r => exact hrefl s
  | sync upd next ih => exact htrans _ _ _ (hp s).1 (ih s (hp s).2 (upd s))
  | await upd next ih => exact htrans _ _ _ (hp s).1 (ih s (hp s).2 (upd s))

end Moves

/-! ## Holding a lock -/

/-- Run alone from `s`, the task leaves the lock held at every suspension point. -/
def Holds (locked : σ → Bool) : Coro σ ε α → σ → Prop
  | done _, _ => True
  | sync upd next, s => Holds locked (next s) (upd s)
  | await upd next, s => locked (upd s) = true ∧ Holds locked (next s) (upd s)

section Holds

variable {locked : σ → Bool}

lemma Holds.bind {p : Coro σ ε α} {k : α → Coro σ ε β} {s : σ} (hp : Holds locked p s)
    (hk : ∀ a s', p.run s = (.ok a, s') → Holds locked (k a) s') :
    Holds locked (p >>= k) s := by
  change Holds locked (p.bind k) s
  induction p generalizing s with
  | done r =>
    cases r with
    | ok a => exact hk a s rfl
    | error e => trivial
  | sync upd next ih => exact ih s hp hk
  | await upd next ih => exact ⟨hp.1, ih s hp.2 hk⟩

lemma Holds.attempt {p : Coro σ ε α} {s : σ} (hp : Holds locked p s) :
    Holds locked p.attempt s := by
  induction p generalizing s with
  | done r => trivial
  | sync upd next ih => exact ih s hp
  | await upd next ih => exact ⟨hp.1, ih s hp.2⟩

/-- A task whose operations keep the lock as it is holds it when it starts with it. -/
lemma Holds.of_moves {p : Coro σ ε α} (hp : Moves (fun s s' => locked s' = locked s) p) {s : σ}
    (hs : locked s = true) : Holds locked p s := by
  induction p generalizing s with
  | done r => trivial
  | sync upd next ih => exact ih s (hp s).2 ((hp s).1.trans hs)
  | await upd next ih => exact ⟨(hp s).1.trans hs, ih s (hp s).2 ((hp s).1.trans hs)⟩

/-- One turn of a task that holds the lock: the task has ended or still holds it. -/
lemma Holds.turn {p : Coro σ ε α} {s : σ} (hp : Holds locked p s) :
    ((p.turn s).1.isDone = true ∨ locked (p.turn s).2 = true) ∧
      Holds locked (p.turn s).1 (p.turn s).2 := by
  induction p generalizing s with
  | done r => exact ⟨.inl rfl, trivial⟩
  | sync upd next ih => exact ih s hp
  | await upd next ih => exact ⟨.inr hp.1, hp.2⟩

end Holds

/-- The task reads until it takes the lock, and then holds it to the end. What it reads in one
state leads to the same end from every later state that `rel` allows. -/
inductive ReadThenLock (rel : σ → σ → Prop) (locked : σ → Bool) : Coro σ ε α → Prop
  | done (r : Except ε α) : ReadThenLock rel locked (.done r)
  | read (next : σ → Coro σ ε α)
      (stable : ∀ s s', rel s s' → ((next s).run s').2 = ((next s').run s').2)
      (rest : ∀ s, ReadThenLock rel locked (next s)) :
      ReadThenLock rel locked (.await id next)
  | lock (p : Coro σ ε α)
      (takes : ∀ s, locked s = false → locked (p.turn s).2 = true ∧ Holds locked p s) :
      ReadThenLock rel locked p

/-- The task has nothing left to write. -/
def Silent (q : Coro σ ε α) : Prop := Moves Eq q

lemma Silent.of_isDone {q : Coro σ ε α} (h : q.isDone = true) : Silent q := by
  cases q with
  | done r => trivial
  | sync _ _ => cases h
  | await _ _ => cases h

lemma Silent.turn {q : Coro σ ε α} (hq : Silent q) (s : σ) :
    (q.turn s).2 = s ∧ Silent (q.turn s).1 :=
  have h := Moves.turn (fun _ => rfl) (fun _ _ _ => Eq.trans) hq s
  ⟨h.1.symm, h.2⟩

lemma Silent.run {q : Coro σ ε α} (hq : Silent q) (s : σ) : (q.run s).2 = s :=
  (Moves.run (fun _ => rfl) (fun _ _ _ => Eq.trans) hq s).symm

/-- As long as `q` has something to write it takes no turn under the lock, and `p` takes the lock
only before the first turn of `q`. `started` says whether `q` has taken a turn. -/
def Undisturbed (locked : σ → Bool) : Bool → List Bool → Coro σ ε α → Coro σ ε β → σ → Prop
  | _, [], _, _, _ => True
  | started, true :: sched, p, q, s =>
    (locked s = false → locked (turn p s).2 = true → started = false ∨ Silent q) ∧
      Undisturbed locked started sched (turn p s).1 q (turn p s).2
  | _, false :: sched, p, q, s =>
    (Silent q ∨ locked s = false) ∧
      Undisturbed locked true sched p (turn q s).1 (turn q s).2

/-- A check of `Undisturbed` for one schedule, with the second task ended instead of silent. -/
def undisturbedCheck (locked : σ → Bool) : Bool → List Bool → Coro σ ε α → Coro σ ε β → σ → Bool
  | _, [], _, _, _ => true
  | started, true :: sched, p, q, s =>
    (locked s || !locked (turn p s).2 || !started || q.isDone) &&
      undisturbedCheck locked started sched (turn p s).1 q (turn p s).2
  | _, false :: sched, p, q, s =>
    (q.isDone || !locked s) && undisturbedCheck locked true sched p (turn q s).1 (turn q s).2

lemma undisturbed_of_check {locked : σ → Bool} {started : Bool} {sched : List Bool}
    {p : Coro σ ε α} {q : Coro σ ε β} {s : σ}
    (h : undisturbedCheck locked started sched p q s = true) :
    Undisturbed locked started sched p q s := by
  induction sched generalizing started p q s with
  | nil => trivial
  | cons b sched ih =>
    cases b with
    | true =>
      simp only [undisturbedCheck, Bool.and_eq_true, Bool.or_eq_true, Bool.not_eq_true'] at h
      refine ⟨fun hfree htaken => ?_, ih h.2⟩
      rcases h.1 with ((h | h) | h) | h
      · rw [hfree] at h
        cases h
      · rw [htaken] at h
        cases h
      · exact .inl h
      · exact .inr (.of_isDone h)
    | false =>
      simp only [undisturbedCheck, Bool.and_eq_true, Bool.or_eq_true, Bool.not_eq_true'] at h
      exact ⟨h.1.imp .of_isDone id, ih h.2⟩

/-! ## The theorem -/

/-- Next to a task with nothing left to write, the first one runs alone. -/
lemma interleave_of_silent_right {sched : List Bool} {p : Coro σ ε α} {q : Coro σ ε β} {s : σ}
    (hq : Silent q) (hc : Complete sched p q s) :
    (interleave sched p q s).2.2 = (p.run s).2 := by
  induction sched generalizing p q s with
  | nil => exact (run_of_isDone hc.1 s).symm
  | cons b sched ih =>
    cases b with
    | true => exact (ih hq hc).trans (by rw [run_turn])
    | false =>
      obtain ⟨hs, hq'⟩ := hq.turn s
      exact (ih hq' hc).trans (by rw [hs])

/-- With the first task done, the second one runs alone. -/
lemma interleave_of_isDone_left {sched : List Bool} {p : Coro σ ε α} {q : Coro σ ε β} {s : σ}
    (hp : p.isDone = true) (hc : Complete sched p q s) :
    (interleave sched p q s).2.2 = (q.run s).2 := by
  induction sched generalizing q s with
  | nil => exact (run_of_isDone hc.2 s).symm
  | cons b sched ih =>
    cases b with
    | true =>
      simp only [Complete, interleave, turn_of_isDone hp] at hc ⊢
      exact ih hc
    | false => exact (ih hc).trans (by rw [run_turn])

variable {rel : σ → σ → Prop} {locked : σ → Bool}

/-- A task under its lock finishes before the other one starts. -/
lemma interleave_of_holds {sched : List Bool} {p : Coro σ ε α} {q : Coro σ ε β} {s : σ}
    (hp : Holds locked p s) (hl : p.isDone = true ∨ locked s = true)
    (hu : Undisturbed locked false sched p q s) (hc : Complete sched p q s) :
    (interleave sched p q s).2.2 = (q.run (p.run s).2).2 := by
  induction sched generalizing p s with
  | nil =>
    change s = (q.run (p.run s).2).2
    rw [run_of_isDone (p := p) hc.1, run_of_isDone (p := q) hc.2]
  | cons b sched ih =>
    cases b with
    | true =>
      obtain ⟨hl', hp'⟩ := hp.turn
      exact (ih hp' hl' hu.2 hc).trans (by rw [run_turn])
    | false =>
      rcases hl with hdone | hlocked
      · rw [interleave_of_isDone_left hdone hc, run_of_isDone hdone]
      · rcases hu.1 with hq | hfree
        · rw [interleave_of_silent_right hq hc, hq.run]
        · rw [hlocked] at hfree
          cases hfree

variable (hrefl : ∀ s, rel s s) (htrans : ∀ s₁ s₂ s₃, rel s₁ s₂ → rel s₂ s₃ → rel s₁ s₃)
  (hlock : ∀ s s', rel s s' → locked s' = locked s)
include hrefl htrans hlock

/-- Once the second task has started, the first one takes its lock after it. -/
lemma interleave_of_started {sched : List Bool} {p p₀ : Coro σ ε α} {q : Coro σ ε β} {s : σ}
    (hs : locked s = false) (hp : ReadThenLock rel locked p)
    (hstable : ∀ s', rel s s' → (p.run s').2 = (p₀.run s').2) (hq : Moves rel q)
    (hu : Undisturbed locked true sched p q s) (hc : Complete sched p q s) :
    (interleave sched p q s).2.2 = (p₀.run (q.run s).2).2 := by
  by_cases hsilent : Silent q
  · rw [interleave_of_silent_right hsilent hc, hsilent.run]
    exact hstable s (hrefl s)
  induction sched generalizing p q s with
  | nil => exact absurd (.of_isDone hc.2) hsilent
  | cons b sched ih =>
    cases b with
    | true =>
      cases hp with
      | done r => exact ih hs (.done r) hstable hq hu.2 hc hsilent
      | read next stable rest =>
        refine ih hs (rest s) (fun s' h => ?_) hq hu.2 hc hsilent
        exact (stable s s' h).trans (hstable s' h)
      | lock _ takes =>
        rcases hu.1 hs (takes s hs).1 with h | h
        · cases h
        · exact absurd h hsilent
    | false =>
      obtain ⟨hrel, hq'⟩ := hq.turn hrefl htrans s
      have hs' : locked (q.turn s).2 = false := (hlock _ _ hrel).trans hs
      have hstable' : ∀ s', rel (q.turn s).2 s' → (p.run s').2 = (p₀.run s').2 :=
        fun s' h => hstable s' (htrans _ _ _ hrel h)
      rw [← run_turn q s]
      by_cases hsilent' : Silent (q.turn s).1
      · rw [hsilent'.run, ← hstable' _ (hrefl _)]
        exact interleave_of_silent_right hsilent' hc
      · exact ih hs' hp hstable' hq' hu.2 hc hsilent'

/-- An undisturbed interleaving ends as a sequential order does. -/
theorem interleave_serial {sched : List Bool} {p : Coro σ ε α} {q : Coro σ ε β} {s : σ}
    (hs : locked s = false) (hp : ReadThenLock rel locked p) (hq : Moves rel q)
    (hu : Undisturbed locked false sched p q s) (hc : Complete sched p q s) :
    (interleave sched p q s).2.2 = (q.run (p.run s).2).2 ∨
      (interleave sched p q s).2.2 = (p.run (q.run s).2).2 := by
  suffices h : ∀ p' : Coro σ ε α, ReadThenLock rel locked p' →
      (∀ s', rel s s' → (p'.run s').2 = (p.run s').2) →
      Undisturbed locked false sched p' q s → Complete sched p' q s →
      (interleave sched p' q s).2.2 = (q.run (p.run s).2).2 ∨
        (interleave sched p' q s).2.2 = (p.run (q.run s).2).2 from
    h p hp (fun _ _ => rfl) hu hc
  clear hu hc
  intro p' hp' hstable hu hc
  induction sched generalizing p' with
  | nil =>
    left
    rw [← hstable s (hrefl s)]
    change s = (q.run (p'.run s).2).2
    rw [run_of_isDone (p := p') hc.1, run_of_isDone (p := q) hc.2]
  | cons b sched ih =>
    cases b with
    | true =>
      cases hp' with
      | done r => exact ih _ (.done r) hstable hu.2 hc
      | read next stable rest =>
        exact ih _ (rest s) (fun s' h => (stable s s' h).trans (hstable s' h)) hu.2 hc
      | lock _ takes =>
        obtain ⟨htaken, hheld⟩ := takes s hs
        left
        rw [← hstable s (hrefl s), ← run_turn p' s]
        exact interleave_of_holds hheld.turn.2 (.inr htaken) hu.2 hc
    | false =>
      right
      obtain ⟨hrel, hq'⟩ := hq.turn hrefl htrans s
      rw [← run_turn q s]
      exact interleave_of_started hrefl htrans hlock ((hlock _ _ hrel).trans hs) hp'
        (fun s' h => hstable s' (htrans _ _ _ hrel h)) hq' hu.2 hc

end PaperTrade.Runtime.Coro
