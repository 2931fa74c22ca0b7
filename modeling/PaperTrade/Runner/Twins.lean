import PaperTrade.Runner.Acts
import PaperTrade.Runner.SuploSignals

/-!
# Two runs side by side

`Twins M R p s p' s'`: from the states `s` and `s'` the methods `p` and `p'` end with the same result,
with signals that `M` relates one by one, and in states that `R` relates. The rules go through both
methods at once; where the two read their states, the goal that is left is about what they have read.

`Alike M R f f'` says the same of two functions on worlds, and lifts to runs (`Alike.foldl`).
-/

namespace PaperTrade.Runner

open PaperTrade.Runtime Dispatcher

variable {σ α β ε : Type} {M : Call → Call → Prop} {R : σ → σ → Prop}

/-- Both methods end in the same way. -/
def Twins (M : Call → Call → Prop) (R : σ → σ → Prop) (p : Method σ α) (s : σ) (p' : Method σ α)
    (s' : σ) : Prop :=
  ∀ o o' : Outbox, ∃ cs cs', calls (p.run (s, o)).2.2.history = calls o.history ++ cs ∧
    calls (p'.run (s', o')).2.2.history = calls o'.history ++ cs' ∧
    (p.run (s, o)).1 = (p'.run (s', o')).1 ∧ List.Forall₂ M cs cs' ∧
    R (p.run (s, o)).2.1 (p'.run (s', o')).2.1

namespace Twins

variable {s s' : σ}

lemma pure {a : α} (h : R s s') : Twins M R (Pure.pure a : Method σ α) s (Pure.pure a) s' :=
  fun _ _ => ⟨[], [], (List.append_nil _).symm, (List.append_nil _).symm, rfl, .nil, h⟩

lemma ofExcept {r : Except StrategyError α} (h : R s s') :
    Twins M R (Coro.ofExcept r : Method σ α) s (Coro.ofExcept r) s' :=
  fun _ _ => ⟨[], [], (List.append_nil _).symm, (List.append_nil _).symm, rfl, .nil, h⟩

lemma modify {f f' : σ → σ} (h : R (f s) (f' s')) :
    Twins M R (modifyState f) s (modifyState f') s' :=
  fun _ _ => ⟨[], [], (List.append_nil _).symm, (List.append_nil _).symm, rfl, .nil, h⟩

lemma get_bind {k k' : σ → Method σ β} (h : Twins M R (k s) s (k' s') s') :
    Twins M R (getState >>= k) s (getState >>= k') s' := by
  intro o o'
  rw [Coro.run_bind_ok (run_getState (s, o)), Coro.run_bind_ok (run_getState (s', o'))]
  exact h o o'

/-- Two methods, one after the other, on both sides; more may hold between them than at the end. -/
lemma bind_of {R' : σ → σ → Prop} {p p' : Method σ α} {k k' : α → Method σ β}
    (h : Twins M R' p s p' s') (hr : ∀ t t', R' t t' → R t t')
    (hk : ∀ a t t', R' t t' → Twins M R (k a) t (k' a) t') :
    Twins M R (p >>= k) s (p' >>= k') s' := by
  intro o o'
  obtain ⟨cs, cs', hcalls, hcalls', hresult, hsignals, hstates⟩ := h o o'
  obtain ⟨r, ⟨t, u⟩, hrun⟩ : ∃ r w, p.run (s, o) = (r, w) := ⟨_, _, rfl⟩
  obtain ⟨r', ⟨t', u'⟩, hrun'⟩ : ∃ r w, p'.run (s', o') = (r, w) := ⟨_, _, rfl⟩
  rw [hrun] at hcalls hresult hstates
  rw [hrun'] at hcalls' hresult hstates
  change r = r' at hresult
  subst hresult
  cases r with
  | error e =>
    rw [Coro.run_bind_error hrun, Coro.run_bind_error hrun']
    exact ⟨cs, cs', hcalls, hcalls', rfl, hsignals, hr t t' hstates⟩
  | ok a =>
    obtain ⟨ds, ds', hmore, hmore', hsame, hlater, hafter⟩ := hk a t t' hstates u u'
    rw [Coro.run_bind_ok hrun, Coro.run_bind_ok hrun']
    refine ⟨cs ++ ds, cs' ++ ds', ?_, ?_, hsame, List.rel_append hsignals hlater, hafter⟩
    · rw [← List.append_assoc, ← hcalls]
      exact hmore
    · rw [← List.append_assoc, ← hcalls']
      exact hmore'

lemma bind {p p' : Method σ α} {k k' : α → Method σ β} (h : Twins M R p s p' s')
    (hk : ∀ a t t', R t t' → Twins M R (k a) t (k' a) t') :
    Twins M R (p >>= k) s (p' >>= k') s' :=
  bind_of h (fun _ _ hr => hr) hk

lemma modify_bind {f f' : σ → σ} {k k' : Unit → Method σ β}
    (h : Twins M R (k ()) (f s) (k' ()) (f' s')) :
    Twins M R (modifyState f >>= k) s (modifyState f' >>= k') s' := by
  intro o o'
  rw [Coro.run_bind_ok (run_modifyState f (s, o)), Coro.run_bind_ok (run_modifyState f' (s', o'))]
  exact h o o'

lemma emit {digest : Logical → String} {env : ℕ → DispatchEnv} (henv : Acknowledges env) {c c' : Call}
    (htime : ∀ now, encodable (c.timestamp now) = true)
    (htime' : ∀ now, encodable (c'.timestamp now) = true) (hcalls : M c c') (h : R s s') :
    Twins M R (emitSignal digest env c) s (emitSignal digest env c') s' := by
  intro o o'
  rw [run_emitSignal henv htime, run_emitSignal henv htime']
  exact ⟨[c], [c'], Acts.calls_send o, Acts.calls_send o', rfl, .cons hcalls .nil, h⟩

lemma emit_bind {digest : Logical → String} {env : ℕ → DispatchEnv} (henv : Acknowledges env)
    {c c' : Call} (htime : ∀ now, encodable (c.timestamp now) = true)
    (htime' : ∀ now, encodable (c'.timestamp now) = true) (hcalls : M c c')
    {k k' : Unit → Method σ β} (hk : Twins M R (k ()) s (k' ()) s') :
    Twins M R (emitSignal digest env c >>= k) s (emitSignal digest env c' >>= k') s' := by
  intro o o'
  rw [Coro.run_bind_ok (run_emitSignal henv htime (s, o)),
    Coro.run_bind_ok (run_emitSignal henv htime' (s', o'))]
  obtain ⟨cs, cs', hmore, hmore', hsame, hlater, hafter⟩ :=
    hk (o.send digest (o.next env) c) (o'.send digest (o'.next env) c')
  rw [Acts.calls_send, List.append_assoc] at hmore
  rw [Acts.calls_send, List.append_assoc] at hmore'
  exact ⟨c :: cs, c' :: cs', hmore, hmore', hsame, .cons hcalls hlater, hafter⟩

lemma ofExcept_bind {r : Except StrategyError α} {k k' : α → Method σ β} (h : R s s')
    (hk : ∀ a, r = .ok a → Twins M R (k a) s (k' a) s') :
    Twins M R (Coro.ofExcept r >>= k) s (Coro.ofExcept r >>= k') s' := by
  cases r with
  | error e => exact ofExcept h
  | ok a => exact hk a rfl

end Twins

/-- Two functions on worlds act in the same way. -/
def Alike (M : Call → Call → Prop) (R : σ → σ → Prop) (f f' : σ × Outbox → σ × Outbox) : Prop :=
  ∀ s s' o o', R s s' → ∃ cs cs', calls (f (s, o)).2.history = calls o.history ++ cs ∧
    calls (f' (s', o')).2.history = calls o'.history ++ cs' ∧ List.Forall₂ M cs cs' ∧
    R (f (s, o)).1 (f' (s', o')).1

/-- A function that sends nothing. -/
lemma Alike.silent {f f' : σ → σ} (h : ∀ s s', R s s' → R (f s) (f' s')) :
    Alike M R (fun w => (f w.1, w.2)) fun w => (f' w.1, w.2) :=
  fun s s' _ _ hr => ⟨[], [], (List.append_nil _).symm, (List.append_nil _).symm, .nil, h s s' hr⟩

/-- Runs over the same events. -/
lemma Alike.foldl {step step' : σ × Outbox → ε → σ × Outbox}
    (h : ∀ e, Alike M R (fun w => step w e) fun w => step' w e) (events : List ε) :
    Alike M R (fun w => events.foldl step w) fun w => events.foldl step' w := by
  induction events with
  | nil =>
    show Alike M R (fun w => (id w.1, w.2)) fun w => (id w.1, w.2)
    exact Alike.silent fun _ _ hr => hr
  | cons e events ih =>
    intro s s' o o' hr
    obtain ⟨cs, cs', hcalls, hcalls', hsignals, hstates⟩ := h e s s' o o' hr
    obtain ⟨ds, ds', hmore, hmore', hlater, hafter⟩ := ih _ _ (step (s, o) e).2 (step' (s', o') e).2 hstates
    refine ⟨cs ++ ds, cs' ++ ds', ?_, ?_, List.rel_append hsignals hlater, hafter⟩
    · rw [← List.append_assoc, ← hcalls]
      exact hmore
    · rw [← List.append_assoc, ← hcalls']
      exact hmore'

/-- The signals of two runs, one by one. -/
lemma Alike.sent {f f' : σ × Outbox → σ × Outbox} (h : Alike M R f f') {w w' : σ × Outbox}
    (hr : R w.1 w'.1) : List.Forall₂ M (sentSince w (f w)) (sentSince w' (f' w')) := by
  obtain ⟨cs, cs', hcalls, hcalls', hsignals, -⟩ := h w.1 w'.1 w.2 w'.2 hr
  rw [sentSince_eq hcalls, sentSince_eq hcalls']
  exact hsignals

end PaperTrade.Runner
