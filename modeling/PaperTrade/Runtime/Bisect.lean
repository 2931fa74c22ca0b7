import Mathlib.Data.List.TakeWhile
import Mathlib.Order.Basic
import Mathlib.Tactic

/-!
# Bisection of a sorted list

`bisect_left` by what it finds in a sorted list: the index after all smaller elements. An element that
is there is found at its own index (`bisectLeft_of_mem`), and another one is inserted where the list
stays sorted (`sorted_insertAt`).
-/

namespace PaperTrade.Runtime

/-- `bisect_left(l, x)` of a sorted list. -/
def bisectLeft {α : Type} [LT α] [DecidableLT α] (l : List α) (x : α) : ℕ :=
  (l.takeWhile (· < x)).length

/-- `l.insert(index, x)`. -/
def insertAt {α : Type} (index : ℕ) (l : List α) (x : α) : List α := l.insertIdx (min index l.length) x

lemma length_insertAt {α : Type} (index : ℕ) (l : List α) (x : α) :
    (insertAt index l x).length = l.length + 1 :=
  List.length_insertIdx_of_le_length (min_le_right ..) x

variable {α : Type} [LinearOrder α] {l : List α} {t : α}

lemma bisectLeft_le : bisectLeft l t ≤ l.length := (List.takeWhile_sublist _).length_le

lemma insertAt_bisectLeft :
    insertAt (bisectLeft l t) l t = l.takeWhile (· < t) ++ t :: l.dropWhile (· < t) := by
  rw [insertAt, min_eq_left bisectLeft_le]
  induction l with
  | nil => rfl
  | cons a l ih =>
    by_cases ha : a < t
    · have hlength : bisectLeft (a :: l) t = bisectLeft l t + 1 := by simp [bisectLeft, ha]
      rw [hlength, List.insertIdx_succ_cons, ih]
      simp [ha]
    · have hlength : bisectLeft (a :: l) t = 0 := by simp [bisectLeft, ha]
      rw [hlength]
      simp [ha]

/-- The search finds no element that is not there. -/
lemma bisectLeft_of_not_mem (ht : t ∉ l) : l[bisectLeft l t]? ≠ some t :=
  fun h => ht (List.mem_of_getElem? h)

variable (hl : l.Pairwise (· < ·))

include hl

/-- After the elements below `t` come the greater ones. -/
lemma dropWhile_gt (ht : t ∉ l) : ∀ a ∈ l.dropWhile (· < t), t < a := by
  induction l with
  | nil => simp
  | cons b l ih =>
    rw [List.mem_cons, not_or] at ht
    obtain ⟨hb, hl'⟩ := List.pairwise_cons.mp hl
    by_cases hlt : b < t
    · rw [List.dropWhile_cons_of_pos (by simpa using hlt)]
      exact ih hl' ht.2
    · rw [List.dropWhile_cons_of_neg (by simpa using hlt)]
      have hgt : t < b := lt_of_le_of_ne (not_lt.mp hlt) ht.1
      intro a ha
      rcases List.mem_cons.mp ha with rfl | ha
      · exact hgt
      · exact hgt.trans (hb a ha)

lemma sorted_insertAt (ht : t ∉ l) : (insertAt (bisectLeft l t) l t).Pairwise (· < ·) := by
  rw [insertAt_bisectLeft, List.pairwise_append]
  have hbefore : ∀ a ∈ l.takeWhile (· < t), a < t := fun a ha => by
    simpa using List.mem_takeWhile_imp ha
  refine ⟨hl.sublist (List.takeWhile_sublist _), ?_, fun a ha b hb => ?_⟩
  · exact List.pairwise_cons.mpr ⟨dropWhile_gt hl ht, hl.sublist (List.dropWhile_sublist _)⟩
  · rcases List.mem_cons.mp hb with rfl | hb
    · exact hbefore a ha
    · exact (hbefore a ha).trans (dropWhile_gt hl ht b hb)

/-- The search finds an element that is there. -/
lemma bisectLeft_of_mem (ht : t ∈ l) : bisectLeft l t = l.idxOf t := by
  induction l with
  | nil => cases ht
  | cons a l ih =>
    obtain ⟨ha, hl'⟩ := List.pairwise_cons.mp hl
    rcases List.mem_cons.mp ht with rfl | hmem
    · simp [bisectLeft]
    · have hlt := ha t hmem
      rw [List.idxOf_cons_ne _ hlt.ne, ← ih hl' hmem]
      simp [bisectLeft, hlt]

/-- No element is above the last. -/
lemma le_last {last : α} (hlast : l.getLast? = some last) {a : α} (ha : a ∈ l) : a ≤ last := by
  obtain ⟨front, rfl⟩ := List.getLast?_eq_some_iff.mp hlast
  rcases List.mem_append.mp ha with ha | ha
  · exact ((List.pairwise_append.mp hl).2.2 a ha last (by simp)).le
  · exact (List.mem_singleton.mp ha).le

/-- The last element is at the last index. -/
lemma idxOf_last (ht : l.getLast? = some t) : l.length - 1 = l.idxOf t := by
  have hmem : t ∈ l := List.mem_of_getLast? ht
  have hidx := List.idxOf_lt_length_of_mem hmem
  rw [List.getLast?_eq_getElem?] at ht
  have hnodup : l.Nodup := hl.imp ne_of_lt
  have hlast : l.length - 1 < l.length := by omega
  have hat : l[l.length - 1] = t := (List.getElem?_eq_some_iff.mp ht).2
  rw [← hat, hnodup.idxOf_getElem]

end PaperTrade.Runtime
