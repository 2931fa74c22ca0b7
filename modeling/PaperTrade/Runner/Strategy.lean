import PaperTrade.Runtime.Coroutine
import PaperTrade.Runner.Dispatcher

/-!
# Strategies

A runner strategy is a state machine that publishes through `StrategyContext.emit_signal`. Its
methods are coroutines over the state of the strategy and the `Outbox`: the dispatcher, and the
dispatches made so far. The environment of the `n`-th dispatch is `env n`; an append that raises
stops the method, and what it has changed stays changed.
-/

namespace PaperTrade.Runner

open PaperTrade.Runtime

/-- What a strategy raises. -/
inductive StrategyError
  /-- `xadd` raises -/
  | appendRaised
  /-- `float division by zero` -/
  | zeroDivision
  /-- `math.floor` of a value that is not finite -/
  | notFinite
  /-- `directions[-1]` of no candles -/
  | noCandle
  /-- `datetime.fromtimestamp` outside of the years 1 to 9999 -/
  | outOfRange
  /-- the `ValueError` of an argument -/
  | badArgument
deriving DecidableEq

/-- The dispatcher of a strategy and the dispatches it has made. -/
structure Outbox where
  dispatcher : Dispatcher
  history : List Dispatcher.Event := []

/-- A method of a strategy with the state `σ`. -/
abbrev Method (σ : Type) := Coro (σ × Outbox) StrategyError

namespace Outbox

variable (digest : Logical → String)

/-- One dispatch. -/
def send (o : Outbox) (env : DispatchEnv) (call : Call) : Outbox where
  dispatcher := (o.dispatcher.dispatch digest env call).2
  history := o.history ++ [.dispatch env call]

/-- The environment of the next dispatch. -/
def next (env : ℕ → DispatchEnv) (o : Outbox) : DispatchEnv := env o.history.length

/-- The outbox of a new process. -/
def restart (o : Outbox) (ok : Bool) : Outbox where
  dispatcher := o.dispatcher.restart ok
  history := o.history ++ [.restart ok]

/-- The dispatcher is where the history has led it from `d`, and no append was lost. -/
structure Faithful (d : Dispatcher) (o : Outbox) : Prop where
  dispatcher : o.dispatcher = d.run digest o.history
  appends : ∀ e ∈ o.history, e.Appends

variable {digest}

lemma Faithful.start (d : Dispatcher) : Faithful digest d { dispatcher := d } :=
  ⟨rfl, fun _ he => nomatch he⟩

lemma Faithful.snoc {d : Dispatcher} {o : Outbox} (h : Faithful digest d o) (e : Dispatcher.Event)
    (he : e.Appends) : Faithful digest d ⟨o.dispatcher.step digest e, o.history ++ [e]⟩ where
  dispatcher := by rw [h.dispatcher, Dispatcher.run, Dispatcher.run, List.foldl_append]; rfl
  appends := by
    intro e' he'
    rcases List.mem_append.mp he' with he' | he'
    · exact h.appends e' he'
    · rw [List.mem_singleton.mp he']
      exact he

lemma Faithful.send {d : Dispatcher} {o : Outbox} (h : Faithful digest d o) {env : DispatchEnv}
    {call : Call} (happend : env.leaseValid = true → Dispatcher.appendOf env call ≠ .lost) :
    Faithful digest d (o.send digest env call) := h.snoc (.dispatch env call) happend

lemma Faithful.restart {d : Dispatcher} {o : Outbox} (h : Faithful digest d o) (ok : Bool) :
    Faithful digest d (o.restart ok) := h.snoc (.restart ok) trivial

end Outbox

section Methods

variable {σ : Type} (digest : Logical → String) (env : ℕ → DispatchEnv)

/-- `await self.ctx.emit_signal(…)`. -/
def emitSignal (call : Call) : Method σ Unit :=
  .sync (fun w => (w.1, w.2.send digest (w.2.next env) call)) fun w =>
    .done (match (w.2.dispatcher.dispatch digest (w.2.next env) call).1 with
      | .raised _ => .error .appendRaised
      | _ => .ok ())

/-- A read of the state of the strategy. -/
def getState : Method σ σ := .sync id fun w => .done (.ok w.1)

/-- An assignment to the state of the strategy. -/
def modifyState (f : σ → σ) : Method σ Unit :=
  .sync (fun w => (f w.1, w.2)) fun _ => .done (.ok ())

@[simp] theorem run_getState (w : σ × Outbox) : (getState (σ := σ)).run w = (.ok w.1, w) := rfl

@[simp] theorem run_modifyState (f : σ → σ) (w : σ × Outbox) :
    (modifyState f).run w = (.ok (), (f w.1, w.2)) := rfl

/-- A method keeps a part of the state of the strategy. -/
def KeepsPart {α β : Type} (f : σ → β) (p : Method σ α) : Prop := ∀ w, f (p.run w).2.1 = f w.1

variable {α β γ : Type} {f : σ → γ}

lemma KeepsPart.pure (a : α) : KeepsPart f (pure a : Method σ α) := fun _ => rfl

lemma KeepsPart.getState : KeepsPart f (getState (σ := σ)) := fun _ => rfl

lemma KeepsPart.modifyState {g : σ → σ} (h : ∀ s, f (g s) = f s) : KeepsPart f (modifyState g) :=
  fun w => h w.1

lemma KeepsPart.bind {p : Method σ α} {k : α → Method σ β} (hp : KeepsPart f p) (hk : ∀ a, KeepsPart f (k a)) :
    KeepsPart f (p >>= k) := by
  intro w
  have hkept := hp w
  rw [Coro.run_bind]
  generalize p.run w = r at hkept
  obtain ⟨_ | a, w'⟩ := r
  · exact hkept
  · exact (hk a w').trans hkept

end Methods

/-- A value written by `json.dumps` into a field. -/
def dumps (v : Json) : Json := .str (String.ofList (dumpsChars v))

end PaperTrade.Runner
