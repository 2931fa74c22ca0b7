import PaperTrade.Runtime.Along
import PaperTrade.Runner.SuploSignals

/-!
# What a method does

`Acts p s Q`: whatever has been dispatched before, the method `p` of a strategy in the state `s` ends
with a result, signals and a state that satisfy `Q`. The rules go through a method from its first
statement on, so that the goal that is left after the last one is about the signals and the state only.

A dispatch ends in two ways, and `Acts.emit_bind` asks for both; where every append is acknowledged it
ends in one (`Acts.emit_bind_ok`).
-/

namespace PaperTrade.Runner

open PaperTrade.Runtime Dispatcher

/-- What a method may end with: its result, the signals it has sent, and the state. -/
abbrev Effect (σ α : Type) := Except StrategyError α → List Call → σ → Prop

/-- The method `p` in the state `s` ends as `Q` says. -/
def Acts {σ α : Type} (p : Method σ α) (s : σ) (Q : Effect σ α) : Prop :=
  ∀ o : Outbox, ∃ cs, calls (p.run (s, o)).2.2.history = calls o.history ++ cs ∧
    Q (p.run (s, o)).1 cs (p.run (s, o)).2.1

/-- The signals that have been sent from `w` to `w'`. -/
def sentSince {σ : Type} (w w' : σ × Outbox) : List Call :=
  (calls w'.2.history).drop (calls w.2.history).length

lemma sentSince_eq {σ : Type} {w w' : σ × Outbox} {cs : List Call}
    (h : calls w'.2.history = calls w.2.history ++ cs) : sentSince w w' = cs := by
  rw [sentSince, h, List.drop_left]

@[simp] lemma sentSince_self {σ : Type} (w : σ × Outbox) : sentSince w w = [] :=
  List.drop_length

namespace Acts

variable {σ α β : Type} {s : σ} {Q Q' : Effect σ α} {R : Effect σ β}

/-- What a method that acts as `Q` says does in a world. -/
lemma run {p : Method σ α} (h : Acts p s Q) (o : Outbox) :
    Q (p.run (s, o)).1 (sentSince (s, o) (p.run (s, o)).2) (p.run (s, o)).2.1 := by
  obtain ⟨cs, hcalls, hq⟩ := h o
  rw [sentSince_eq hcalls]
  exact hq

lemma calls_run {p : Method σ α} (h : Acts p s Q) (o : Outbox) :
    calls (p.run (s, o)).2.2.history =
      calls o.history ++ sentSince (s, o) (p.run (s, o)).2 := by
  obtain ⟨cs, hcalls, -⟩ := h o
  rw [hcalls, sentSince_eq hcalls]

lemma mono {p : Method σ α} (h : Acts p s Q) (hq : ∀ r cs s', Q r cs s' → Q' r cs s') :
    Acts p s Q' := by
  intro o
  obtain ⟨cs, hcalls, hpost⟩ := h o
  exact ⟨cs, hcalls, hq _ _ _ hpost⟩

lemma pure {a : α} (h : Q (.ok a) [] s) : Acts (Pure.pure a : Method σ α) s Q :=
  fun o => ⟨[], (List.append_nil _).symm, h⟩

lemma ofExcept {r : Except StrategyError α} (h : Q r [] s) : Acts (Coro.ofExcept r : Method σ α) s Q :=
  fun o => ⟨[], (List.append_nil _).symm, h⟩

/-- Two methods, one after the other. -/
lemma bind {p : Method σ α} {k : α → Method σ β}
    (h : Acts p s fun r cs s' =>
      (∀ a, r = .ok a → Acts (k a) s' fun r' cs' s'' => R r' (cs ++ cs') s'') ∧
        ∀ e, r = .error e → R (.error e) cs s') :
    Acts (p >>= k) s R := by
  intro o
  obtain ⟨cs, hcalls, hok, herror⟩ := h o
  obtain ⟨r, w, hrun⟩ : ∃ r w, p.run (s, o) = (r, w) := ⟨_, _, rfl⟩
  rw [hrun] at hcalls hok herror
  cases r with
  | error e =>
    refine ⟨cs, ?_, ?_⟩
    · rw [Coro.run_bind_error hrun]
      exact hcalls
    · rw [Coro.run_bind_error hrun]
      exact herror e rfl
  | ok a =>
    obtain ⟨cs', hcalls', hpost⟩ := hok a rfl w.2
    refine ⟨cs ++ cs', ?_, ?_⟩
    · rw [Coro.run_bind_ok hrun, ← List.append_assoc, ← hcalls]
      exact hcalls'
    · rw [Coro.run_bind_ok hrun]
      exact hpost

lemma get_bind {k : σ → Method σ β} (h : Acts (k s) s R) : Acts (getState >>= k) s R := by
  intro o
  rw [Coro.run_bind_ok (run_getState (s, o))]
  exact h o

lemma modify {f : σ → σ} {Q : Effect σ Unit} (h : Q (.ok ()) [] (f s)) : Acts (modifyState f) s Q :=
  fun o => ⟨[], (List.append_nil _).symm, h⟩

lemma modify_bind {f : σ → σ} {k : Unit → Method σ β} (h : Acts (k ()) (f s) R) :
    Acts (modifyState f >>= k) s R := by
  intro o
  rw [Coro.run_bind_ok (run_modifyState f (s, o))]
  exact h o

lemma ofExcept_bind {r : Except StrategyError α} {k : α → Method σ β}
    (hok : ∀ a, r = .ok a → Acts (k a) s R) (herror : ∀ e, r = .error e → R (.error e) [] s) :
    Acts (Coro.ofExcept r >>= k) s R :=
  bind (ofExcept ⟨hok, herror⟩)

/-! ## Dispatches -/

variable {digest : Logical → String} {env : ℕ → DispatchEnv} {c : Call}

lemma calls_send (o : Outbox) : calls (o.send digest (o.next env) c).history = calls o.history ++ [c] :=
  calls_append _ _

/-- A dispatch returns or raises; the call has been made. -/
lemma emit {Q : Effect σ Unit} (hok : Q (.ok ()) [c] s) (hraised : Q (.error .appendRaised) [c] s) :
    Acts (emitSignal digest env c) s Q := by
  intro o
  refine ⟨[c], calls_send o, ?_⟩
  simp only [emitSignal, Coro.run_sync]
  split
  · exact hraised
  · exact hok

lemma emit_bind {k : Unit → Method σ β} (hok : Acts (k ()) s fun r cs s' => R r (c :: cs) s')
    (hraised : R (.error .appendRaised) [c] s) : Acts (emitSignal digest env c >>= k) s R := by
  refine bind (emit ⟨fun _ _ => hok, fun e he => ?_⟩ ⟨fun a ha => ?_, fun e he => ?_⟩)
  · cases he
  · cases ha
  · cases he
    exact hraised

lemma emit_ok (henv : Acknowledges env) (htime : ∀ now, encodable (c.timestamp now) = true)
    {Q : Effect σ Unit} (h : Q (.ok ()) [c] s) : Acts (emitSignal digest env c) s Q := by
  intro o
  rw [run_emitSignal henv htime]
  exact ⟨[c], calls_send o, h⟩

lemma emit_bind_ok (henv : Acknowledges env) (htime : ∀ now, encodable (c.timestamp now) = true)
    {k : Unit → Method σ β} (h : Acts (k ()) s fun r cs s' => R r (c :: cs) s') :
    Acts (emitSignal digest env c >>= k) s R :=
  bind (emit_ok henv htime ⟨fun _ _ => h, fun _ he => by cases he⟩)

end Acts

/-! ## Methods that end in one way -/

/-- The method returns `a` with the signals `cs` in the state `s'`. -/
def Ends {σ α : Type} (p : Method σ α) (s : σ) (a : α) (cs : List Call) (s' : σ) : Prop :=
  Acts p s fun r cs' s'' => r = .ok a ∧ cs' = cs ∧ s'' = s'

namespace Ends

variable {σ α β : Type} {s s₁ s₂ : σ} {p : Method σ α} {k : α → Method σ β} {a : α} {b : β}
  {cs cs' : List Call}

lemma pure : Ends (Pure.pure a : Method σ α) s a [] s := Acts.pure ⟨rfl, rfl, rfl⟩

lemma modify {f : σ → σ} : Ends (modifyState f) s () [] (f s) := Acts.modify ⟨rfl, rfl, rfl⟩

lemma get_bind {k : σ → Method σ β} (h : Ends (k s) s b cs s₁) : Ends (getState >>= k) s b cs s₁ :=
  Acts.get_bind h

/-- What comes after a method that ends in one way. -/
lemma then_acts {R : Effect σ β} (h : Ends p s a cs s₁)
    (hk : Acts (k a) s₁ fun r cs' s' => R r (cs ++ cs') s') : Acts (p >>= k) s R := by
  refine Acts.bind (Acts.mono h ?_)
  rintro r cs' s' ⟨rfl, rfl, rfl⟩
  refine ⟨fun a' ha' => ?_, fun e he => ?_⟩
  · cases ha'
    exact hk
  · cases he

lemma modify_bind {f : σ → σ} {k : Unit → Method σ β} (h : Ends (k ()) (f s) b cs s₁) :
    Ends (modifyState f >>= k) s b cs s₁ := Acts.modify_bind h

lemma bind (h : Ends p s a cs s₁) (hk : Ends (k a) s₁ b cs' s₂) :
    Ends (p >>= k) s b (cs ++ cs') s₂ := by
  refine h.then_acts (Acts.mono hk ?_)
  rintro r cs'' s' ⟨hr, rfl, hs'⟩
  exact ⟨hr, rfl, hs'⟩

lemma emit {digest : Logical → String} {env : ℕ → DispatchEnv} {c : Call} (henv : Acknowledges env)
    (htime : ∀ now, encodable (c.timestamp now) = true) : Ends (emitSignal digest env c) s () [c] s :=
  Acts.emit_ok henv htime ⟨rfl, rfl, rfl⟩

end Ends

/-! ## What a method leaves alone -/

section Keeps

variable {σ α γ : Type} {f : σ → γ} {digest : Logical → String} {env : ℕ → DispatchEnv}

lemma KeepsPart.emit (c : Call) : KeepsPart f (emitSignal digest env c : Method σ Unit) := fun _ => rfl

lemma KeepsPart.ofExcept (r : Except StrategyError α) :
    KeepsPart f (Coro.ofExcept r : Method σ α) := fun _ => rfl

lemma Acts.keeps {p : Method σ α} {s : σ} {Q : Effect σ α} (h : Acts p s Q) (hf : KeepsPart f p) :
    Acts p s fun r cs s' => Q r cs s' ∧ f s' = f s := by
  intro o
  obtain ⟨cs, hcalls, hq⟩ := h o
  exact ⟨cs, hcalls, hq, hf (s, o)⟩

end Keeps

end PaperTrade.Runner
