import Mathlib.Logic.Function.Basic
import Mathlib.Tactic.Basic
import Mathlib.Tactic.Common

/-!
# Keys that expire

A store of keys with a time to live, as Redis keeps them: a key is there until its deadline has come.
The commands are `GET`, `SET … NX EX`, and `EXPIRE` and `DEL` under the condition that the key has a
given value.
-/

namespace PaperTrade.Runtime

variable {κ ν : Type*}

/-- The clock of the store, and the value and the deadline of each key that has been set. -/
structure Expiring (κ ν : Type*) where
  now : ℕ := 0
  entry : κ → Option (ν × ℕ) := fun _ => none

namespace Expiring

/-- `GET key`. -/
def get (s : Expiring κ ν) (k : κ) : Option ν :=
  (s.entry k).bind fun e => if s.now < e.2 then some e.1 else none

/-- Time passes. -/
def tick (s : Expiring κ ν) (d : ℕ) : Expiring κ ν := { s with now := s.now + d }

variable [DecidableEq κ] [DecidableEq ν]

/-- `SET key value NX EX ttl`, which Redis refuses for a time of zero. -/
def setNx (s : Expiring κ ν) (k : κ) (v : ν) (ttl : ℕ) : Bool × Expiring κ ν :=
  if s.get k = none ∧ 0 < ttl then
    (true, { s with entry := Function.update s.entry k (some (v, s.now + ttl)) })
  else (false, s)

/-- `EXPIRE key ttl` if the key has the value. -/
def expireIf (s : Expiring κ ν) (k : κ) (v : ν) (ttl : ℕ) : Bool × Expiring κ ν :=
  if s.get k = some v then
    (true, { s with entry := Function.update s.entry k (some (v, s.now + ttl)) })
  else (false, s)

/-- `DEL key` if the key has the value. -/
def deleteIf (s : Expiring κ ν) (k : κ) (v : ν) : Bool × Expiring κ ν :=
  if s.get k = some v then (true, { s with entry := Function.update s.entry k none })
  else (false, s)

variable {s : Expiring κ ν} {k k' : κ} {v w : ν} {ttl d : ℕ}

omit [DecidableEq κ] [DecidableEq ν] in
@[simp] lemma get_empty : (({} : Expiring κ ν).get k) = none := rfl

omit [DecidableEq κ] [DecidableEq ν] in
/-- Time only takes keys away. -/
lemma get_of_get_tick (h : (s.tick d).get k = some v) : s.get k = some v := by
  unfold get tick at *
  cases hentry : s.entry k with
  | none => rw [hentry] at h; exact h
  | some e =>
    rw [hentry] at h
    simp only [Option.bind_some] at h ⊢
    by_cases hlate : s.now + d < e.2
    · have hbefore : s.now < e.2 := by omega
      rw [if_pos hlate] at h
      rw [if_pos hbefore, h]
    · rw [if_neg hlate] at h
      cases h

omit [DecidableEq ν] in
private lemma get_set_entry (e : Option (ν × ℕ)) :
    Expiring.get { s with entry := Function.update s.entry k e } k' =
      if k' = k then e.bind fun e => if s.now < e.2 then some e.1 else none else s.get k' := by
  unfold get
  by_cases heq : k' = k
  · rw [if_pos heq, heq]
    show (Function.update s.entry k e k).bind _ = _
    rw [Function.update_self]
  · rw [if_neg heq]
    show (Function.update s.entry k e k').bind _ = _
    rw [Function.update_of_ne heq]

omit [DecidableEq ν] in
/-- What `SET … NX` answers and leaves. -/
lemma setNx_cases (s : Expiring κ ν) (k : κ) (v : ν) (ttl : ℕ) :
    (s.get k = none ∧ 0 < ttl ∧ (s.setNx k v ttl).1 = true ∧
      ∀ k', (s.setNx k v ttl).2.get k' = if k' = k then some v else s.get k') ∨
    ((s.setNx k v ttl).1 = false ∧ (s.setNx k v ttl).2 = s) := by
  unfold setNx
  split
  · rename_i hfree
    refine .inl ⟨hfree.1, hfree.2, rfl, fun k' => ?_⟩
    rw [get_set_entry]
    have hlive : s.now < s.now + ttl := by omega
    simp only [Option.bind_some, if_pos hlive]
  · exact .inr ⟨rfl, rfl⟩

/-- With a time above zero, `EXPIRE` changes no value. -/
lemma get_expireIf (httl : 0 < ttl) : (s.expireIf k v ttl).2.get k' = s.get k' := by
  unfold expireIf
  split
  · rename_i hheld
    rw [get_set_entry]
    have hlive : s.now < s.now + ttl := by omega
    simp only [Option.bind_some, if_pos hlive]
    split
    · rename_i heq
      rw [heq, hheld]
    · rfl
  · rfl

/-- An `EXPIRE` of another value makes no key. -/
lemma get_of_get_expireIf (hne : w ≠ v) (h : (s.expireIf k w ttl).2.get k' = some v) :
    s.get k' = some v := by
  unfold expireIf at h
  split at h
  · rw [get_set_entry] at h
    by_cases hk : k' = k
    · rw [if_pos hk, Option.bind_some] at h
      split at h
      · exact absurd (Option.some.inj h) hne
      · cases h
    · rwa [if_neg hk] at h
  · exact h

/-- `EXPIRE` of a key without the value does nothing. -/
lemma expireIf_of_ne (h : s.get k ≠ some v) : s.expireIf k v ttl = (false, s) := if_neg h

/-- What is left after a `DEL`. -/
lemma get_deleteIf :
    (s.deleteIf k v).2.get k' = if k' = k ∧ s.get k = some v then none else s.get k' := by
  unfold deleteIf
  by_cases hheld : s.get k = some v
  · rw [if_pos hheld, get_set_entry]
    by_cases heq : k' = k
    · rw [if_pos heq, if_pos ⟨heq, hheld⟩]
      rfl
    · rw [if_neg heq, if_neg fun h => heq h.1]
  · rw [if_neg hheld, if_neg fun h => hheld h.2]

/-! ## Until when a key is there -/

/-- The key has the value, and its deadline is after `t`. -/
def Until (s : Expiring κ ν) (k : κ) (v : ν) (t : ℕ) : Prop := ∃ d, s.entry k = some (v, d) ∧ t < d

variable {t : ℕ}

omit [DecidableEq κ] [DecidableEq ν] in
lemma Until.get (h : s.Until k v t) (hnow : s.now ≤ t) : s.get k = some v := by
  obtain ⟨d, hentry, hd⟩ := h
  have hlive : s.now < d := by omega
  unfold Expiring.get
  rw [hentry, Option.bind_some, if_pos hlive]

omit [DecidableEq κ] [DecidableEq ν] in
lemma Until.tick (h : s.Until k v t) (d : ℕ) : (s.tick d).Until k v t := h

omit [DecidableEq ν] in
/-- Nobody can set a key that is there. -/
lemma Until.setNx (h : s.Until k v t) (hnow : s.now ≤ t) (k' : κ) (w : ν) (ttl : ℕ) :
    (s.setNx k' w ttl).2.Until k v t := by
  unfold Expiring.setNx
  split
  · rename_i hfree
    obtain ⟨d, hentry, hd⟩ := h
    refine ⟨d, ?_, hd⟩
    have hne : k ≠ k' := by
      rintro rfl
      have hget := Until.get ⟨d, hentry, hd⟩ hnow
      rw [hfree.1] at hget
      cases hget
    show Function.update s.entry k' _ k = _
    rw [Function.update_of_ne hne, hentry]
  · exact h

/-- An `EXPIRE` by someone else changes nothing, and the key's own one sets a deadline that is late
enough. -/
lemma Until.expireIf (h : s.Until k v t) (hnow : s.now ≤ t) (k' : κ) (w : ν)
    (hown : w = v → t < s.now + ttl) : (s.expireIf k' w ttl).2.Until k v t := by
  unfold Expiring.expireIf
  split
  · rename_i hheld
    by_cases hk : k = k'
    · subst hk
      have hvalue : v = w := Option.some.inj ((h.get hnow).symm.trans hheld)
      refine ⟨s.now + ttl, ?_, hown hvalue.symm⟩
      show Function.update s.entry k _ k = _
      rw [Function.update_self, hvalue]
    · obtain ⟨d, hentry, hd⟩ := h
      refine ⟨d, ?_, hd⟩
      show Function.update s.entry k' _ k = _
      rw [Function.update_of_ne hk, hentry]
  · exact h

/-- No one else can delete the key. -/
lemma Until.deleteIf (h : s.Until k v t) (hnow : s.now ≤ t) (k' : κ) (hne : w ≠ v) :
    (s.deleteIf k' w).2.Until k v t := by
  unfold Expiring.deleteIf
  split
  · rename_i hheld
    obtain ⟨d, hentry, hd⟩ := h
    refine ⟨d, ?_, hd⟩
    have hk : k ≠ k' := by
      rintro rfl
      have hget := Until.get ⟨d, hentry, hd⟩ hnow
      exact hne (Option.some.inj (hheld.symm.trans hget))
    show Function.update s.entry k' _ k = _
    rw [Function.update_of_ne hk, hentry]
  · exact h

omit [DecidableEq ν] in
/-- A `SET … NX` that succeeds keeps the key for its time to live. -/
lemma until_setNx (h : (s.setNx k v ttl).1 = true) (ht : t < s.now + ttl) :
    (s.setNx k v ttl).2.Until k v t := by
  unfold Expiring.setNx at h ⊢
  split
  · exact ⟨s.now + ttl, Function.update_self .., ht⟩
  · rename_i hnot
    rw [if_neg hnot] at h
    cases h

/-- An `EXPIRE` that succeeds keeps the key for the new time to live. -/
lemma until_expireIf (h : (s.expireIf k v ttl).1 = true) (ht : t < s.now + ttl) :
    (s.expireIf k v ttl).2.Until k v t := by
  unfold Expiring.expireIf at h ⊢
  split
  · exact ⟨s.now + ttl, Function.update_self .., ht⟩
  · rename_i hnot
    rw [if_neg hnot] at h
    cases h

omit [DecidableEq ν] in
@[simp] lemma now_setNx : (s.setNx k v ttl).2.now = s.now := by
  unfold setNx
  split <;> rfl

@[simp] lemma now_expireIf : (s.expireIf k v ttl).2.now = s.now := by
  unfold expireIf
  split <;> rfl

@[simp] lemma now_deleteIf : (s.deleteIf k v).2.now = s.now := by
  unfold deleteIf
  split <;> rfl

end Expiring

end PaperTrade.Runtime
