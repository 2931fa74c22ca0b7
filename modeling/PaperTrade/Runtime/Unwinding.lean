import Mathlib.Data.List.Basic
import Mathlib.Tactic.Common

/-!
# Unwinding

Two runs of a machine of which an observer sees only some events. A view of the state unwinds when
an event the observer does not see leaves it alone, and one it sees moves it as the view and the
event dictate. Runs with the same visible events then end in states of the same view.
-/

namespace PaperTrade.Runtime

variable {σ ε ω : Type*}

/-- Under the events of `Allowed`, the view follows the visible events alone. -/
structure Unwinds (step : σ → ε → σ) (Allowed : ε → Prop) (visible : ε → Bool) (view : σ → ω) :
    Prop where
  hidden : ∀ s e, Allowed e → visible e = false → view (step s e) = view s
  seen : ∀ s t e, Allowed e → visible e = true → view s = view t →
    view (step s e) = view (step t e)

namespace Unwinds

variable {step : σ → ε → σ} {Allowed : ε → Prop} {visible : ε → Bool} {view : σ → ω}
  {s t : σ} {es es' : List ε}

/-- A view unwinds when every event leaves it alone, or is visible and acts on it alone. -/
theorem of_cases
    (h : ∀ e, Allowed e → (∀ s, view (step s e) = view s) ∨
      visible e = true ∧ ∃ f : ω → ω, ∀ s, view (step s e) = f (view s)) :
    Unwinds step Allowed visible view where
  hidden s e he hvisible := by
    obtain hleft | ⟨htrue, -⟩ := h e he
    · exact hleft s
    · rw [hvisible] at htrue
      cases htrue
  seen s t e he _ hst := by
    obtain hleft | ⟨-, f, hf⟩ := h e he
    · rw [hleft s, hleft t, hst]
    · rw [hf s, hf t, hst]

/-- A run and its visible part end in the same view. -/
theorem foldl_filter (h : Unwinds step Allowed visible view) (hes : ∀ e ∈ es, Allowed e)
    (hst : view s = view t) :
    view (es.foldl step s) = view ((es.filter visible).foldl step t) := by
  induction es generalizing s t with
  | nil => exact hst
  | cons e es ih =>
    have he : Allowed e := hes e (List.mem_cons_self ..)
    have htail : ∀ e' ∈ es, Allowed e' := fun e' he' => hes e' (List.mem_cons_of_mem e he')
    show view (es.foldl step (step s e)) = _
    cases hvisible : visible e with
    | false =>
      rw [List.filter_cons_of_neg (by simp [hvisible])]
      apply ih htail
      rw [h.hidden s e he hvisible, hst]
    | true =>
      rw [List.filter_cons_of_pos hvisible]
      exact ih htail (h.seen s t e he hvisible hst)

/-- Two runs with the same visible events end in the same view. -/
theorem foldl_eq (h : Unwinds step Allowed visible view) (hes : ∀ e ∈ es, Allowed e)
    (hes' : ∀ e ∈ es', Allowed e) (heq : es.filter visible = es'.filter visible) :
    view (es.foldl step s) = view (es'.foldl step s) := by
  rw [h.foldl_filter hes rfl, h.foldl_filter hes' rfl, heq]

end Unwinds

end PaperTrade.Runtime
