import Mathlib.Tactic

/-!
# What holds along a run

A system that takes one event after another is a function `step`; its run is the left fold. `Along P`
says that `P` holds of every state of the run and the event that it meets, so a claim about the steps of
all runs is `Along` of a claim about one step. `Along.of_inv` is the induction: an invariant that the
steps keep may be used at each of them.
-/

namespace PaperTrade.Runtime

variable {ω ε : Type}

/-- `P` holds of every step of the run. -/
def Along (step : ω → ε → ω) (P : ω → ε → Prop) : ω → List ε → Prop
  | _, [] => True
  | w, e :: events => P w e ∧ Along step P (step w e) events

instance decidableAlong (step : ω → ε → ω) (P : ω → ε → Prop) [∀ w e, Decidable (P w e)] :
    (w : ω) → (events : List ε) → Decidable (Along step P w events)
  | _, [] => .isTrue trivial
  | w, e :: events =>
    have := decidableAlong step P (step w e) events
    inferInstanceAs (Decidable (P w e ∧ _))

variable {step : ω → ε → ω} {P Q : ω → ε → Prop}

/-- An invariant of the steps that satisfy `P` may be used at each of them. -/
theorem Along.of_inv {I : ω → Prop} (hstep : ∀ w e, I w → P w e → I (step w e))
    (hprop : ∀ w e, I w → P w e → Q w e) {w : ω} {events : List ε} (hw : I w)
    (h : Along step P w events) : Along step Q w events := by
  induction events generalizing w with
  | nil => trivial
  | cons e events ih => exact ⟨hprop w e hw h.1, ih (hstep w e hw h.1) h.2⟩

/-- An invariant of the steps that satisfy `P` holds at the end of the run. -/
theorem Along.foldl {I : ω → Prop} (hstep : ∀ w e, I w → P w e → I (step w e)) {w : ω} {events : List ε}
    (hw : I w) (h : Along step P w events) : I (events.foldl step w) := by
  induction events generalizing w with
  | nil => exact hw
  | cons e events ih => exact ih (hstep w e hw h.1) h.2

theorem Along.imp (h : ∀ w e, P w e → Q w e) {w : ω} {events : List ε}
    (hp : Along step P w events) : Along step Q w events :=
  Along.of_inv (I := fun _ => True) (fun _ _ _ _ => trivial) (fun w e _ => h w e) trivial hp

theorem Along.of_forall (h : ∀ w e, P w e) (w : ω) (events : List ε) : Along step P w events := by
  induction events generalizing w with
  | nil => trivial
  | cons e events ih => exact ⟨h w e, ih (step w e)⟩

theorem Along.of_mem {P : ε → Prop} {events : List ε} (h : ∀ e ∈ events, P e) (w : ω) :
    Along step (fun _ e => P e) w events := by
  induction events generalizing w with
  | nil => trivial
  | cons e events ih =>
    exact ⟨h e (List.mem_cons_self ..), ih (fun e' he' => h e' (List.mem_cons_of_mem _ he')) _⟩

/-- A run with something beside the world that the steps do not look at. -/
theorem Along.of_beside {γ : Type} {step' : ω × γ → ε → ω × γ} (hstep : ∀ w e, (step' w e).1 = step w.1 e)
    {w : ω × γ} {events : List ε} (h : Along step' (fun w e => P w.1 e) w events) :
    Along step P w.1 events := by
  induction events generalizing w with
  | nil => trivial
  | cons e events ih =>
    refine ⟨h.1, ?_⟩
    rw [← hstep w e]
    exact ih h.2

/-- The step after a prefix of the run. -/
theorem Along.at {w : ω} {before after : List ε} {e : ε}
    (h : Along step P w (before ++ e :: after)) : P (before.foldl step w) e := by
  induction before generalizing w with
  | nil => exact h.1
  | cons e' before ih => exact ih h.2

end PaperTrade.Runtime
