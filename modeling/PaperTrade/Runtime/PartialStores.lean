import Mathlib.Data.List.TakeWhile
import Mathlib.Tactic

/-!
# Stores that can stop halfway

An object is overwritten cell by cell, and between two stores something can raise: the value of the
next cell cannot be computed, or there is no such cell. The stores made before stay. `storeAll` is such
a run of stores; it makes exactly those before the first cell that fails (`storeAll_eq`), so a run that
raises leaves the object as it was when these cells held their new values already
(`storeAll_intact_iff`).
-/

namespace PaperTrade.Runtime

/-- An object with cells of its own: a store changes one cell and nothing else. -/
structure Cells (σ F V : Type*) where
  /-- The value of a cell, where the object has it. -/
  cell : σ → F → Option V
  put : F → V → σ → σ
  cell_put_same : ∀ f v s, (cell s f).isSome → cell (put f v s) f = some v
  cell_put_other : ∀ f g v s, g ≠ f → cell (put f v s) g = cell s g
  put_self : ∀ f v s, cell s f = some v → put f v s = s

namespace Cells

variable {σ F V : Type*} (c : Cells σ F V) (value : F → Option V)

/-- A store that can raise. -/
def store (f : F) (s : σ) : Option σ :=
  match value f, c.cell s f with
  | some v, some _ => some (c.put f v s)
  | _, _ => none

/-- One store after the other: what is left, and whether one of them raised. -/
def storeAll (c : Cells σ F V) (value : F → Option V) : List F → σ → σ × Bool
  | [], s => (s, false)
  | f :: fs, s =>
    match c.store value f s with
    | some s' => storeAll c value fs s'
    | none => (s, true)

/-- Whatever the stores keep is kept, wherever the run stops. -/
lemma storeAll_keeps {c : Cells σ F V} {value : F → Option V} {P : σ → Prop}
    (hput : ∀ f v s, P s → P (c.put f v s)) {fs : List F} {s : σ} (hs : P s) :
    P (c.storeAll value fs s).1 := by
  induction fs generalizing s with
  | nil => exact hs
  | cons f fs ih =>
    unfold storeAll store
    cases value f with
    | none => exact hs
    | some v =>
      cases c.cell s f with
      | none => exact hs
      | some _ => exact ih (hput f v s hs)

/-- A store goes through. -/
def Writes (s : σ) (f : F) : Bool := (value f).isSome && (c.cell s f).isSome

/-- The stores of a run, one after the other. -/
def putAll (fs : List F) (s : σ) : σ :=
  fs.foldl (fun s f => match value f with | some v => c.put f v s | none => s) s

variable {c value}

lemma store_eq_some_iff {f : F} {s s' : σ} :
    c.store value f s = some s' ↔ c.Writes value s f = true ∧ c.putAll value [f] s = s' := by
  unfold store Writes putAll
  cases hv : value f with
  | none => simp
  | some v => cases hcell : c.cell s f <;> simp [hv]

lemma putAll_cons (f : F) (fs : List F) (s : σ) :
    c.putAll value (f :: fs) s = c.putAll value fs (c.putAll value [f] s) := rfl

lemma cell_putAll_other {fs : List F} {g : F} (hg : g ∉ fs) (s : σ) :
    c.cell (c.putAll value fs s) g = c.cell s g := by
  induction fs generalizing s with
  | nil => rfl
  | cons f fs ih =>
    rw [List.mem_cons, not_or] at hg
    obtain ⟨hne, hrest⟩ := hg
    rw [putAll_cons, ih hrest]
    unfold putAll
    cases hv : value f with
    | none => simp [hv]
    | some v => simpa [hv] using c.cell_put_other f g v s hne

/-- The run makes the stores before the first cell that fails. -/
theorem storeAll_eq {fs : List F} (hfs : fs.Nodup) (s : σ) :
    c.storeAll value fs s =
      (c.putAll value (fs.takeWhile (c.Writes value s)) s, !fs.all (c.Writes value s)) := by
  -- along the run the cells that are still to come stay as they were
  suffices hrun : ∀ s', (∀ g ∈ fs, c.cell s' g = c.cell s g) →
      c.storeAll value fs s' =
        (c.putAll value (fs.takeWhile (c.Writes value s)) s', !fs.all (c.Writes value s)) from
    hrun s fun _ _ => rfl
  induction fs with
  | nil => exact fun _ _ => rfl
  | cons f fs ih =>
    intro s' hs'
    obtain ⟨hf, hfs⟩ := List.nodup_cons.mp hfs
    have hhead : c.Writes value s' f = c.Writes value s f := by
      rw [Writes, hs' f List.mem_cons_self, Writes]
    by_cases hwrites : c.Writes value s f = true
    · have hstore : c.store value f s' = some (c.putAll value [f] s') :=
        store_eq_some_iff.mpr ⟨hhead.trans hwrites, rfl⟩
      have hlater : ∀ g ∈ fs, c.cell (c.putAll value [f] s') g = c.cell s g := by
        intro g hg
        have hne : g ∉ [f] := fun h => hf (List.mem_singleton.mp h ▸ hg)
        rw [cell_putAll_other hne, hs' g (List.mem_cons_of_mem _ hg)]
      rw [storeAll, hstore]
      show c.storeAll value fs (c.putAll value [f] s') = _
      rw [ih hfs _ hlater, List.takeWhile_cons_of_pos hwrites, List.all_cons, hwrites, Bool.true_and]
      rfl
    · have hstore : c.store value f s' = none := by
        rw [Option.eq_none_iff_forall_not_mem]
        exact fun s'' h => hwrites (hhead.symm.trans (store_eq_some_iff.mp h).1)
      rw [storeAll, hstore, List.takeWhile_cons_of_neg hwrites]
      simp [hwrites, putAll]

lemma cell_putAll_mem {fs : List F} (hfs : fs.Nodup) {s : σ}
    (hwrites : ∀ f ∈ fs, c.Writes value s f = true) {g : F} (hg : g ∈ fs) :
    c.cell (c.putAll value fs s) g = value g := by
  induction fs generalizing s with
  | nil => cases hg
  | cons f fs ih =>
    obtain ⟨hf, hfs⟩ := List.nodup_cons.mp hfs
    rw [putAll_cons]
    rcases List.mem_cons.mp hg with rfl | hg
    · rw [cell_putAll_other hf]
      have hhead := hwrites g List.mem_cons_self
      rw [Writes, Bool.and_eq_true] at hhead
      obtain ⟨v, hv⟩ := Option.isSome_iff_exists.mp hhead.1
      simpa [putAll, hv] using c.cell_put_same g v s hhead.2
    · refine ih hfs (fun g' hg' => ?_) hg
      have hne : g' ∉ [f] := fun h => hf (List.mem_singleton.mp h ▸ hg')
      rw [Writes, cell_putAll_other hne]
      exact hwrites g' (List.mem_cons_of_mem _ hg')

/-- Stores that go through change nothing when the cells hold their new values already. -/
lemma putAll_eq_self_iff {fs : List F} (hfs : fs.Nodup) {s : σ}
    (hwrites : ∀ f ∈ fs, c.Writes value s f = true) :
    c.putAll value fs s = s ↔ ∀ f ∈ fs, c.cell s f = value f := by
  constructor
  · intro hsame f hf
    rw [← cell_putAll_mem hfs hwrites hf, hsame]
  · intro hcells
    induction fs with
    | nil => rfl
    | cons f fs ih =>
      have hput : c.putAll value [f] s = s := by
        have hcell := hcells f List.mem_cons_self
        unfold putAll
        cases hv : value f with
        | none => simp [hv]
        | some v => simpa [hv] using c.put_self f v s (hcell.trans hv)
      rw [putAll_cons, hput]
      exact ih (List.nodup_cons.mp hfs).2 (fun g hg => hwrites g (List.mem_cons_of_mem _ hg))
        fun g hg => hcells g (List.mem_cons_of_mem _ hg)

/-- A run that raises leaves the object as it was when the cells before the first one that fails held
their new values already. -/
theorem storeAll_intact_iff {fs : List F} (hfs : fs.Nodup) (s : σ) :
    ((c.storeAll value fs s).2 = true → (c.storeAll value fs s).1 = s) ↔
      (∀ f ∈ fs, c.Writes value s f = true) ∨
        ∀ f ∈ fs.takeWhile (c.Writes value s), c.cell s f = value f := by
  rw [storeAll_eq hfs]
  have hprefix : ∀ f ∈ fs.takeWhile (c.Writes value s), c.Writes value s f = true :=
    fun f hf => List.mem_takeWhile_imp hf
  have hnodup : (fs.takeWhile (c.Writes value s)).Nodup :=
    hfs.sublist (List.takeWhile_sublist _)
  rw [putAll_eq_self_iff hnodup hprefix, ← List.all_eq_true]
  cases fs.all (c.Writes value s) <;> simp

end Cells

end PaperTrade.Runtime
