import Mathlib.Data.List.Nodup
import Mathlib.Logic.Function.Basic
import Mathlib.Tactic

/-!
# Writes that can fail

A store is written key by key through calls that can fail, before or after they took effect: a caller
that gets no answer knows neither. `writeAll` stops at the first failure. Until then the keys have their
new values, behind it the old ones, and at the failure one of both (`writeAll_between`); a run that
does not fail has written all (`writeAll_written`), so writing back what was read before restores the
store when that run does not fail (`writeAll_restores`).
-/

namespace PaperTrade.Runtime

/-- What becomes of a call. -/
inductive Fault
  | answered
  | refused
  /-- the call took effect, and raised -/
  | unanswered
deriving DecidableEq

/-- What a store holds: `none` is a key that is not there. -/
abbrev Store (κ V : Type) : Type := κ → Option V

section WriteAll

variable {κ V : Type} [DecidableEq κ]

/-- One write after the other; `false` when one of them raised. -/
def writeAll (fault : κ → Fault) : List (κ × Option V) → Store κ V → Store κ V × Bool
  | [], s => (s, true)
  | (k, v) :: writes, s =>
    match fault k with
    | .answered => writeAll fault writes (Function.update s k v)
    | .refused => (s, false)
    | .unanswered => (Function.update s k v, false)

variable {fault : κ → Fault} {writes : List (κ × Option V)} {s : Store κ V} {k : κ} {v : Option V}

/-- No other key is touched. -/
lemma writeAll_unlisted (h : k ∉ writes.map Prod.fst) : (writeAll fault writes s).1 k = s k := by
  induction writes generalizing s with
  | nil => rfl
  | cons e writes ih =>
    obtain ⟨k', v'⟩ := e
    rw [List.map_cons, List.mem_cons, not_or] at h
    have hother : Function.update s k' v' k = s k := Function.update_of_ne h.1 v' s
    unfold writeAll
    cases fault k' with
    | answered => exact (ih h.2).trans hother
    | refused => rfl
    | unanswered => exact hother

/-- A key that is written has its old value or its new one. -/
lemma writeAll_between (hnodup : (writes.map Prod.fst).Nodup) (hmem : (k, v) ∈ writes) :
    (writeAll fault writes s).1 k = s k ∨ (writeAll fault writes s).1 k = v := by
  induction writes generalizing s with
  | nil => cases hmem
  | cons e writes ih =>
    obtain ⟨k', v'⟩ := e
    rw [List.map_cons, List.nodup_cons] at hnodup
    rcases List.mem_cons.mp hmem with heq | hlater
    · obtain ⟨rfl, rfl⟩ := Prod.mk.inj heq
      unfold writeAll
      cases fault k with
      | answered =>
        dsimp only
        rw [writeAll_unlisted hnodup.1]
        exact .inr (Function.update_self ..)
      | refused => exact .inl rfl
      | unanswered => exact .inr (Function.update_self ..)
    · have hne : k ≠ k' := by
        rintro rfl
        exact hnodup.1 (List.mem_map.mpr ⟨_, hlater, rfl⟩)
      have hother : Function.update s k' v' k = s k := Function.update_of_ne hne v' s
      unfold writeAll
      cases fault k' with
      | answered =>
        dsimp only
        rw [← hother]
        exact ih hnodup.2 hlater
      | refused => exact .inl rfl
      | unanswered => exact .inl hother

/-- A run that did not fail has written all. -/
lemma writeAll_written (hnodup : (writes.map Prod.fst).Nodup)
    (hdone : (writeAll fault writes s).2 = true) (hmem : (k, v) ∈ writes) :
    (writeAll fault writes s).1 k = v := by
  induction writes generalizing s with
  | nil => cases hmem
  | cons e writes ih =>
    obtain ⟨k', v'⟩ := e
    rw [List.map_cons, List.nodup_cons] at hnodup
    unfold writeAll at hdone ⊢
    cases hfault : fault k' with
    | answered =>
      rw [hfault] at hdone
      dsimp only at hdone ⊢
      rcases List.mem_cons.mp hmem with heq | hmem
      · obtain ⟨rfl, rfl⟩ := Prod.mk.inj heq
        rw [writeAll_unlisted hnodup.1]
        exact Function.update_self ..
      · exact ih hnodup.2 hdone hmem
    | refused =>
      rw [hfault] at hdone
      cases hdone
    | unanswered =>
      rw [hfault] at hdone
      cases hdone

/-- A run in which every call is answered does not fail. -/
lemma writeAll_answered (s : Store κ V) (h : ∀ e ∈ writes, fault e.1 = .answered) :
    (writeAll fault writes s).2 = true := by
  induction writes generalizing s with
  | nil => rfl
  | cons e writes ih =>
    obtain ⟨hfirst, hrest⟩ := List.forall_mem_cons.mp h
    obtain ⟨k', v'⟩ := e
    unfold writeAll
    rw [hfirst]
    exact ih _ hrest

variable {keys : List κ} {s' : Store κ V}

/-- The values that were read, written back. -/
def restoring (keys : List κ) (s : Store κ V) : List (κ × Option V) := keys.map fun k => (k, s k)

omit [DecidableEq κ] in
lemma map_fst_restoring : (restoring keys s).map Prod.fst = keys := by
  rw [restoring, List.map_map]
  exact List.map_id keys

/-- Writing them back restores a store that has not changed elsewhere. -/
theorem writeAll_restores (hnodup : keys.Nodup) (hother : ∀ k, k ∉ keys → s' k = s k)
    (hdone : (writeAll fault (restoring keys s) s').2 = true) :
    (writeAll fault (restoring keys s) s').1 = s := by
  funext k
  by_cases hk : k ∈ keys
  · refine writeAll_written ?_ hdone (List.mem_map.mpr ⟨k, hk, rfl⟩)
    rwa [map_fst_restoring]
  · rw [writeAll_unlisted (by rwa [map_fst_restoring])]
    exact hother k hk

/-- However far that run gets, a key has the value it has or the one it had. -/
lemma restoring_between (fault : κ → Fault) (s s' : Store κ V) (k : κ) (hnodup : keys.Nodup) :
    (writeAll fault (restoring keys s) s').1 k = s' k ∨
      (writeAll fault (restoring keys s) s').1 k = s k := by
  by_cases hk : k ∈ keys
  · refine writeAll_between ?_ (List.mem_map.mpr ⟨k, hk, rfl⟩)
    rwa [map_fst_restoring]
  · exact .inl (writeAll_unlisted (by rwa [map_fst_restoring]))

end WriteAll

end PaperTrade.Runtime
