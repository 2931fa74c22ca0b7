import Mathlib.Data.List.Nodup
import Mathlib.Tactic

/-!
# Loops that can raise

Rules for `foldlM` in `Except`: what every pass keeps the loop keeps (`foldlM_keeps`), and what a pass
establishes for its own element and the others leave alone holds of all elements at the end
(`foldlM_establishes`). A comprehension has the values of its elements, and of nothing else
(`mem_of_mapM_ok`, `exists_of_mapM_ok`).
-/

namespace PaperTrade.Runtime

variable {ε σ α : Type} {f : σ → α → Except ε σ} {l : List α} {s s' : σ}

/-- A loop that did not raise has made its first pass and the rest. -/
lemma foldlM_cons_ok {a : α} (h : (a :: l).foldlM f s = .ok s') :
    ∃ next, f s a = .ok next ∧ l.foldlM f next = .ok s' := by
  rw [List.foldlM_cons] at h
  cases hfirst : f s a with
  | error e =>
    rw [hfirst] at h
    cases h
  | ok next =>
    rw [hfirst] at h
    exact ⟨next, rfl, h⟩

/-- What every pass keeps. -/
theorem foldlM_keeps {P : σ → Prop} (hstep : ∀ a ∈ l, ∀ s s', f s a = .ok s' → P s → P s')
    (h : l.foldlM f s = .ok s') (hs : P s) : P s' := by
  induction l generalizing s with
  | nil =>
    cases h
    exact hs
  | cons a l ih =>
    obtain ⟨next, hfirst, hrest⟩ := foldlM_cons_ok h
    obtain ⟨hstep, hsteps⟩ := List.forall_mem_cons.mp hstep
    exact ih hsteps hrest (hstep s next hfirst hs)

/-- What a pass establishes for its element, and the other passes keep. -/
theorem foldlM_establishes {P : α → σ → Prop} (hnodup : l.Nodup)
    (hown : ∀ a ∈ l, ∀ s s', f s a = .ok s' → P a s')
    (hother : ∀ a ∈ l, ∀ b ∈ l, b ≠ a → ∀ s s', f s b = .ok s' → P a s → P a s')
    (h : l.foldlM f s = .ok s') : ∀ a ∈ l, P a s' := by
  induction l generalizing s with
  | nil =>
    intro a ha
    cases ha
  | cons b l ih =>
    obtain ⟨hfresh, hnodup⟩ := List.nodup_cons.mp hnodup
    obtain ⟨next, hfirst, hrest⟩ := foldlM_cons_ok h
    have hlater := ih hnodup (fun a ha => hown a (List.mem_cons_of_mem _ ha))
      (fun a ha c hc => hother a (List.mem_cons_of_mem _ ha) c (List.mem_cons_of_mem _ hc)) hrest
    intro a ha
    rcases List.mem_cons.mp ha with rfl | ha
    · refine foldlM_keeps (fun c hc t t' hstep => ?_) hrest
        (hown a List.mem_cons_self s next hfirst)
      have hne : c ≠ a := by
        rintro rfl
        exact hfresh hc
      exact hother a List.mem_cons_self c (List.mem_cons_of_mem _ hc) hne t t' hstep
    · exact hlater a ha

/-- A call that raises something else in place of what it raises. -/
lemma ok_of_mapError {ε' β : Type} {x : Except ε β} {g : ε → ε'} {b : β}
    (h : x.mapError g = .ok b) : x = .ok b := by
  cases x with
  | error e => cases h
  | ok b' =>
    cases h
    rfl

section Comprehension

variable {β : Type} {g : α → Except ε β} {bs : List β}

private lemma mapM_cons_ok {a : α} (h : (a :: l).mapM g = .ok bs) :
    ∃ b rest, g a = .ok b ∧ l.mapM g = .ok rest ∧ bs = b :: rest := by
  rw [List.mapM_cons] at h
  cases hfirst : g a with
  | error e =>
    rw [hfirst] at h
    cases h
  | ok b =>
    rw [hfirst] at h
    cases hrest : l.mapM g with
    | error e =>
      rw [hrest] at h
      cases h
    | ok rest =>
      rw [hrest] at h
      exact ⟨b, rest, rfl, rfl, (Except.ok.inj h).symm⟩

/-- A value is that of an element. -/
lemma mem_of_mapM_ok (h : l.mapM g = .ok bs) {b : β} (hb : b ∈ bs) : ∃ a ∈ l, g a = .ok b := by
  induction l generalizing bs with
  | nil =>
    cases h
    cases hb
  | cons a l ih =>
    obtain ⟨first, rest, hfirst, hrest, rfl⟩ := mapM_cons_ok h
    rcases List.mem_cons.mp hb with rfl | hb
    · exact ⟨a, List.mem_cons_self, hfirst⟩
    · obtain ⟨a', ha', hvalue⟩ := ih hrest hb
      exact ⟨a', List.mem_cons_of_mem _ ha', hvalue⟩

/-- Every element has its value. -/
lemma exists_of_mapM_ok (h : l.mapM g = .ok bs) {a : α} (ha : a ∈ l) : ∃ b ∈ bs, g a = .ok b := by
  induction l generalizing bs with
  | nil => cases ha
  | cons a' l ih =>
    obtain ⟨first, rest, hfirst, hrest, rfl⟩ := mapM_cons_ok h
    rcases List.mem_cons.mp ha with rfl | ha
    · exact ⟨first, List.mem_cons_self, hfirst⟩
    · obtain ⟨b, hb, hvalue⟩ := ih hrest ha
      exact ⟨b, List.mem_cons_of_mem _ hb, hvalue⟩

/-- A comprehension whose elements all have values has one. -/
lemma exists_mapM_ok (h : ∀ a ∈ l, ∃ b, g a = .ok b) : ∃ bs, l.mapM g = .ok bs := by
  induction l with
  | nil => exact ⟨[], rfl⟩
  | cons a l ih =>
    obtain ⟨⟨b, hb⟩, hl⟩ := List.forall_mem_cons.mp h
    obtain ⟨bs, hbs⟩ := ih hl
    rw [List.mapM_cons, hb, hbs]
    exact ⟨b :: bs, rfl⟩

end Comprehension

end PaperTrade.Runtime
