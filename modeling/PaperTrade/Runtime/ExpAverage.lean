import Mathlib.Data.List.GetD
import Mathlib.Data.List.Sort
import Mathlib.Tactic

/-!
# Exponential averages and medians

The exponential average of a series weighs each value with `alpha` and the average before it with the
rest. It commutes with reflections (`expAverages_reflect`), and on a series without negative values an
average is zero only where all values up to it are (`getD_expAverages_eq_zero_iff`); so the zero averages
come first (`zerosFirst_expAverages`).

The median of an even number of values is the mean of the two in the middle. Where the zeros come first and
no value is negative, it is zero if and only if the upper one of the two is (`middle_eq_zero_iff`).
-/

namespace PaperTrade.Runtime

section Averages

variable {K : Type} [Field K]

/-- The averages after `prev`. -/
def expFrom (alpha : K) : K → List K → List K
  | _, [] => []
  | prev, v :: rest =>
    let next := alpha * v + (1 - alpha) * prev
    next :: expFrom alpha next rest

/-- The averages of a series; the first value is the first average. -/
def expAverages (alpha : K) : List K → List K
  | [] => []
  | v :: rest => v :: expFrom alpha v rest

@[simp] lemma length_expFrom (alpha prev : K) (l : List K) : (expFrom alpha prev l).length = l.length := by
  induction l generalizing prev with
  | nil => rfl
  | cons v rest ih => rw [expFrom, List.length_cons, List.length_cons, ih]

@[simp] lemma length_expAverages (alpha : K) (l : List K) : (expAverages alpha l).length = l.length := by
  cases l with
  | nil => rfl
  | cons v rest => rw [expAverages, List.length_cons, List.length_cons, length_expFrom]

/-- The averages of a reflected series are the reflected averages. -/
lemma expFrom_reflect (alpha c prev : K) (l : List K) :
    expFrom alpha (c - prev) (l.map (c - ·)) = (expFrom alpha prev l).map (c - ·) := by
  induction l generalizing prev with
  | nil => rfl
  | cons v rest ih =>
    have hnext : alpha * (c - v) + (1 - alpha) * (c - prev) = c - (alpha * v + (1 - alpha) * prev) := by
      ring
    rw [List.map_cons, expFrom, expFrom, List.map_cons, hnext, ih]

lemma expAverages_reflect (alpha c : K) (l : List K) :
    expAverages alpha (l.map (c - ·)) = (expAverages alpha l).map (c - ·) := by
  cases l with
  | nil => rfl
  | cons v rest => rw [List.map_cons, expAverages, expAverages, List.map_cons, expFrom_reflect]

variable [LinearOrder K] [IsStrictOrderedRing K]

/-- Where an element is zero, all elements before it are. -/
def ZerosFirst (l : List K) : Prop := l.Pairwise fun a b => b = 0 → a = 0

section Nonneg

variable {alpha : K} (h0 : 0 < alpha) (h1 : alpha < 1)
include h0 h1

/-- An average is zero if and only if both of its parts are. -/
lemma blend_eq_zero_iff {v prev : K} (hv : 0 ≤ v) (hprev : 0 ≤ prev) :
    alpha * v + (1 - alpha) * prev = 0 ↔ v = 0 ∧ prev = 0 := by
  have hrest : 0 < 1 - alpha := sub_pos.mpr h1
  rw [add_eq_zero_iff_of_nonneg (mul_nonneg h0.le hv) (mul_nonneg hrest.le hprev),
    mul_eq_zero_iff_left h0.ne', mul_eq_zero_iff_left hrest.ne']

lemma blend_nonneg {v prev : K} (hv : 0 ≤ v) (hprev : 0 ≤ prev) :
    0 ≤ alpha * v + (1 - alpha) * prev :=
  add_nonneg (mul_nonneg h0.le hv) (mul_nonneg (sub_pos.mpr h1).le hprev)

lemma expFrom_nonneg {prev : K} (hprev : 0 ≤ prev) {l : List K} (hl : ∀ v ∈ l, 0 ≤ v) :
    ∀ a ∈ expFrom alpha prev l, 0 ≤ a := by
  induction l generalizing prev with
  | nil => exact fun a ha => absurd ha List.not_mem_nil
  | cons v rest ih =>
    have hnext := blend_nonneg h0 h1 (hl v List.mem_cons_self) hprev
    intro a ha
    rcases List.mem_cons.mp ha with rfl | ha
    · exact hnext
    · exact ih hnext (fun v hv => hl v (List.mem_cons_of_mem _ hv)) a ha

/-- An average after `prev` is zero if and only if `prev` and all values up to it are. -/
lemma getD_expFrom_eq_zero_iff {prev : K} (hprev : 0 ≤ prev) {l : List K} (hl : ∀ v ∈ l, 0 ≤ v)
    {k : ℕ} (hk : k < l.length) :
    (expFrom alpha prev l).getD k 0 = 0 ↔ prev = 0 ∧ ∀ v ∈ l.take (k + 1), v = 0 := by
  induction l generalizing prev k with
  | nil => exact absurd hk (Nat.not_lt_zero k)
  | cons v rest ih =>
    have hv : 0 ≤ v := hl v List.mem_cons_self
    have hrest : ∀ v ∈ rest, 0 ≤ v := fun v hv => hl v (List.mem_cons_of_mem _ hv)
    rw [expFrom, List.take_succ_cons, List.forall_mem_cons]
    cases k with
    | zero =>
      rw [List.getD_cons_zero, blend_eq_zero_iff h0 h1 hv hprev]
      simp [and_comm]
    | succ k =>
      rw [List.getD_cons_succ, ih (blend_nonneg h0 h1 hv hprev) hrest (Nat.lt_of_succ_lt_succ hk),
        blend_eq_zero_iff h0 h1 hv hprev, and_comm (a := v = 0), and_assoc]

lemma getD_expAverages_eq_zero_iff {l : List K} (hl : ∀ v ∈ l, 0 ≤ v) {k : ℕ} (hk : k < l.length) :
    (expAverages alpha l).getD k 0 = 0 ↔ ∀ v ∈ l.take (k + 1), v = 0 := by
  cases l with
  | nil => exact absurd hk (Nat.not_lt_zero k)
  | cons v rest =>
    have hrest : ∀ v ∈ rest, 0 ≤ v := fun v hv => hl v (List.mem_cons_of_mem _ hv)
    rw [expAverages, List.take_succ_cons, List.forall_mem_cons]
    cases k with
    | zero => simp
    | succ k =>
      rw [List.getD_cons_succ,
        getD_expFrom_eq_zero_iff h0 h1 (hl v List.mem_cons_self) hrest (Nat.lt_of_succ_lt_succ hk)]

lemma expAverages_nonneg {l : List K} (hl : ∀ v ∈ l, 0 ≤ v) : ∀ a ∈ expAverages alpha l, 0 ≤ a := by
  cases l with
  | nil => exact fun a ha => absurd ha List.not_mem_nil
  | cons v rest =>
    intro a ha
    rcases List.mem_cons.mp ha with rfl | ha
    · exact hl a List.mem_cons_self
    · exact expFrom_nonneg h0 h1 (hl v List.mem_cons_self)
        (fun v hv => hl v (List.mem_cons_of_mem _ hv)) a ha

lemma zerosFirst_expAverages {l : List K} (hl : ∀ v ∈ l, 0 ≤ v) : ZerosFirst (expAverages alpha l) := by
  refine List.pairwise_iff_getElem.mpr fun i j hi hj hij hzero => ?_
  rw [length_expAverages] at hi hj
  rw [← List.getD_eq_getElem _ 0, getD_expAverages_eq_zero_iff h0 h1 hl hj] at hzero
  rw [← List.getD_eq_getElem _ 0, getD_expAverages_eq_zero_iff h0 h1 hl hi]
  exact fun v hv => hzero v ((List.take_prefix_take_left (by omega)).subset hv)

end Nonneg

end Averages

/-! ## Medians -/

section Medians

variable {K : Type} [Field K] [LinearOrder K]

/-- The mean of the two values in the middle of an even number of them, the one in the middle of an odd
number. -/
def middle (l : List K) : K :=
  let sorted := l.insertionSort (· ≤ ·)
  let n := sorted.length
  if n % 2 = 1 then sorted.getD (n / 2) 0 else (sorted.getD (n / 2 - 1) 0 + sorted.getD (n / 2) 0) / 2

/-- In an ascending list without negative values the zeros come first. -/
lemma zerosFirst_of_ascending {l : List K} (hl : ∀ v ∈ l, 0 ≤ v) (hle : l.Pairwise (· ≤ ·)) :
    ZerosFirst l := by
  refine hle.imp_of_mem fun ha _ hab hzero => ?_
  exact le_antisymm (hzero ▸ hab) (hl _ ha)

/-- Where the zeros come first, an element is zero if and only if there are more zeros than elements
before it. -/
lemma getD_eq_zero_iff_lt_count {l : List K} (hl : ZerosFirst l) {k : ℕ} (hk : k < l.length) :
    l.getD k 0 = 0 ↔ k < l.count 0 := by
  induction l generalizing k with
  | nil => exact absurd hk (Nat.not_lt_zero k)
  | cons v rest ih =>
    obtain ⟨hv, hrest⟩ := List.pairwise_cons.mp hl
    by_cases hzero : v = 0
    · rw [hzero, List.count_cons_self]
      cases k with
      | zero => simp
      | succ k =>
        rw [List.getD_cons_succ, ih hrest (Nat.lt_of_succ_lt_succ hk)]
        exact Nat.succ_lt_succ_iff.symm
    · -- no zero comes after the first element
      have hnone : rest.count 0 = 0 := List.count_eq_zero.mpr fun hmem => hzero (hv 0 hmem rfl)
      rw [List.count_cons_of_ne hzero, hnone]
      cases k with
      | zero => simpa using hzero
      | succ k =>
        rw [List.getD_cons_succ, ih hrest (Nat.lt_of_succ_lt_succ hk), hnone]
        exact ⟨fun h => absurd h (Nat.not_lt_zero _), fun h => absurd h (Nat.not_lt_zero _)⟩

variable [IsStrictOrderedRing K]

lemma middle_nonneg {l : List K} (hl : ∀ v ∈ l, 0 ≤ v) : 0 ≤ middle l := by
  have hsorted : ∀ k, 0 ≤ (l.insertionSort (· ≤ ·)).getD k 0 := by
    intro k
    by_cases hk : k < (l.insertionSort (· ≤ ·)).length
    · rw [List.getD_eq_getElem _ _ hk]
      exact hl _ ((List.mem_insertionSort _).mp (List.getElem_mem hk))
    · rw [List.getD_eq_default _ _ (not_lt.mp hk)]
  unfold middle
  dsimp only
  split
  · exact hsorted _
  · exact div_nonneg (add_nonneg (hsorted _) (hsorted _)) zero_le_two

/-- Of an even number of values, none of them negative and the zeros first, the median is zero if and only
if the upper one in the middle is. -/
lemma middle_eq_zero_iff {l : List K} (hl : ∀ v ∈ l, 0 ≤ v) (hfirst : ZerosFirst l) {m : ℕ}
    (hlen : l.length = 2 * m) (hm : 0 < m) : middle l = 0 ↔ l.getD m 0 = 0 := by
  have hsortedLength : (l.insertionSort (· ≤ ·)).length = 2 * m := by
    rw [List.length_insertionSort, hlen]
  have hsortedNonneg : ∀ v ∈ l.insertionSort (· ≤ ·), 0 ≤ v :=
    fun v hv => hl v ((List.mem_insertionSort _).mp hv)
  have hsortedFirst : ZerosFirst (l.insertionSort (· ≤ ·)) :=
    zerosFirst_of_ascending hsortedNonneg (List.pairwise_insertionSort _ _)
  have hcount : (l.insertionSort (· ≤ ·)).count 0 = l.count 0 := (List.perm_insertionSort _ _).count_eq 0
  have heven : ¬ 2 * m % 2 = 1 := by omega
  have hhalf : 2 * m / 2 = m := by omega
  have hlow : 0 ≤ (l.insertionSort (· ≤ ·)).getD (m - 1) 0 := by
    rw [List.getD_eq_getElem _ _ (by omega)]
    exact hsortedNonneg _ (List.getElem_mem _)
  have hhigh : 0 ≤ (l.insertionSort (· ≤ ·)).getD m 0 := by
    rw [List.getD_eq_getElem _ _ (by omega)]
    exact hsortedNonneg _ (List.getElem_mem _)
  unfold middle
  dsimp only
  rw [hsortedLength, if_neg heven, hhalf, div_eq_zero_iff, or_iff_left two_ne_zero,
    add_eq_zero_iff_of_nonneg hlow hhigh, getD_eq_zero_iff_lt_count hsortedFirst (by omega),
    getD_eq_zero_iff_lt_count hsortedFirst (by omega), hcount, getD_eq_zero_iff_lt_count hfirst (by omega)]
  omega

end Medians

end PaperTrade.Runtime
