import PaperTrade.Runtime.Coroutine

/-!
# Invariants of concurrent coroutines

`Keeps I Q p`: whatever state of `I` an operation of the task `p` finds, it leaves one of `I`, and
what `p` returns satisfies `Q`. Nothing is assumed about the state from one operation to the next but
`I`, so a pool of tasks that keep `I` keeps it under every schedule (`Pool.Safe.acts`).
-/

namespace PaperTrade.Runtime

namespace Coro

variable {σ ε α β : Type}

/-- Every operation of the task keeps `I`, and its result satisfies `Q`. -/
def Keeps (I : σ → Prop) (Q : α → Prop) : Coro σ ε α → Prop
  | done r => ∀ a, r = .ok a → Q a
  | sync upd next => ∀ s, I s → I (upd s) ∧ Keeps I Q (next s)
  | await upd next => ∀ s, I s → I (upd s) ∧ Keeps I Q (next s)

variable {I : σ → Prop} {Q Q' : α → Prop} {R : β → Prop}

lemma Keeps.pure {a : α} (h : Q a) : Keeps I Q (pure a : Coro σ ε α) := by
  intro b hb
  cases hb
  exact h

lemma Keeps.throw (e : ε) : Keeps I Q (throw e : Coro σ ε α) := fun _ h => nomatch h

lemma Keeps.ofExcept {r : Except ε α} (h : ∀ a, r = .ok a → Q a) : Keeps I Q (ofExcept r) := h

lemma Keeps.bind {p : Coro σ ε α} {k : α → Coro σ ε β} (hp : Keeps I Q p)
    (hk : ∀ a, Q a → Keeps I R (k a)) : Keeps I R (p >>= k) := by
  change Keeps I R (p.bind k)
  induction p with
  | done r =>
    cases r with
    | ok a => exact hk a (hp a rfl)
    | error e => exact fun _ h => nomatch h
  | sync upd next ih => exact fun s hs => ⟨(hp s hs).1, ih s (hp s hs).2⟩
  | await upd next ih => exact fun s hs => ⟨(hp s hs).1, ih s (hp s hs).2⟩

lemma Keeps.mono {p : Coro σ ε α} (hp : Keeps I Q p) (h : ∀ a, Q a → Q' a) : Keeps I Q' p := by
  induction p with
  | done r => exact fun a ha => h a (hp a ha)
  | sync upd next ih => exact fun s hs => ⟨(hp s hs).1, ih s (hp s hs).2⟩
  | await upd next ih => exact fun s hs => ⟨(hp s hs).1, ih s (hp s hs).2⟩

lemma Keeps.attempt {p : Coro σ ε α} (hp : Keeps I Q p) :
    Keeps I (fun r => ∀ a, r = .ok a → Q a) p.attempt := by
  induction p with
  | done r =>
    intro b hb
    cases hb
    exact hp
  | sync upd next ih => exact fun s hs => ⟨(hp s hs).1, ih s (hp s hs).2⟩
  | await upd next ih => exact fun s hs => ⟨(hp s hs).1, ih s (hp s hs).2⟩

lemma Keeps.tryCatch {p : Coro σ ε α} {handler : ε → Coro σ ε α} (hp : Keeps I Q p)
    (hh : ∀ e, Keeps I Q (handler e)) : Keeps I Q (tryCatch p handler) := by
  refine hp.attempt.bind fun r hr => ?_
  cases r with
  | ok a => exact Keeps.pure (hr a rfl)
  | error e => exact hh e

lemma Keeps.turn {p : Coro σ ε α} (hp : Keeps I Q p) {s : σ} (hs : I s) :
    I (p.turn s).2 ∧ Keeps I Q (p.turn s).1 := by
  induction p generalizing s with
  | done r => exact ⟨hs, hp⟩
  | sync upd next ih => exact ih s (hp s hs).2 (hp s hs).1
  | await upd next ih => exact hp s hs

end Coro

/-! ## Pools -/

/-- A shared state and the tasks that work on it. -/
structure Pool (σ ε : Type) where
  state : σ
  tasks : List (Coro σ ε Unit)

/-- What can happen to a pool whose tasks are the programs of `τ`: one is started, or the `i`-th
takes a turn. -/
inductive Pool.Action (τ : Type)
  | start (t : τ)
  | turn (i : ℕ)

namespace Pool

variable {σ ε τ : Type} (program : τ → Coro σ ε Unit)

/-- One action. -/
def act (p : Pool σ ε) : Action τ → Pool σ ε
  | .start t => { p with tasks := p.tasks ++ [program t] }
  | .turn i =>
    match p.tasks[i]? with
    | none => p
    | some q => ⟨(q.turn p.state).2, p.tasks.set i (q.turn p.state).1⟩

/-- A run. -/
def acts (p : Pool σ ε) (actions : List (Action τ)) : Pool σ ε := actions.foldl (act program) p

/-- The invariant holds, and every task keeps it. -/
structure Safe (I : σ → Prop) (p : Pool σ ε) : Prop where
  state : I p.state
  tasks : ∀ q ∈ p.tasks, q.Keeps I fun _ => True

variable {program} {I : σ → Prop}

lemma Safe.act {p : Pool σ ε} (h : p.Safe I) {a : Action τ}
    (ha : ∀ t, a = .start t → (program t).Keeps I fun _ => True) : (p.act program a).Safe I := by
  cases a with
  | start t =>
    refine ⟨h.state, fun q hq => ?_⟩
    rcases List.mem_append.mp hq with hq | hq
    · exact h.tasks q hq
    · rw [List.mem_singleton.mp hq]
      exact ha t rfl
  | turn i =>
    rw [Pool.act]
    split
    · exact h
    · rename_i q hq
      have hturn := (h.tasks q (List.mem_of_getElem? hq)).turn h.state
      refine ⟨hturn.1, fun q' hq' => ?_⟩
      rcases List.mem_or_eq_of_mem_set hq' with hq' | rfl
      · exact h.tasks q' hq'
      · exact hturn.2

/-- Tasks that keep an invariant keep it under every schedule. -/
theorem Safe.acts {p : Pool σ ε} (h : p.Safe I) {actions : List (Action τ)}
    (ha : ∀ t, .start t ∈ actions → (program t).Keeps I fun _ => True) :
    (p.acts program actions).Safe I := by
  induction actions generalizing p with
  | nil => exact h
  | cons a actions ih =>
    refine ih (h.act fun t ht => ha t ?_) fun t ht => ha t (List.mem_cons_of_mem _ ht)
    rw [ht]
    exact List.mem_cons_self ..

end Pool

end PaperTrade.Runtime
