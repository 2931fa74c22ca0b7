import Mathlib.Data.List.Basic
import Mathlib.Data.List.Range
import Mathlib.Tactic

/-!
# Series in buckets

A series has a value at some points of time. A bucket of `n` points at one distance has a value when
all of its points have one: the aggregate of these. Aggregating in two stages, small buckets into
large ones, is the same as aggregating the points at once (`bucket_bucket`).

Aggregates here reduce a list with a binary operation that is associative on the values that occur.
-/

namespace PaperTrade.Runtime

variable {α : Type*}

/-! ## Reducing lists -/

/-- `op` between the elements of a list, from the left. -/
def reduce [Inhabited α] (op : α → α → α) : List α → α
  | [] => default
  | x :: l => l.foldl op x

/-- `op` is associative on the elements of `P`, and stays among them. -/
structure AssocOn (P : α → Prop) (op : α → α → α) : Prop where
  closed : ∀ {x y}, P x → P y → P (op x y)
  assoc : ∀ {x y z}, P x → P y → P z → op (op x y) z = op x (op y z)

section Reduce

variable [Inhabited α] {P : α → Prop} {op : α → α → α} {x y : α} {l l' : List α}

lemma AssocOn.foldl_mem (h : AssocOn P op) (hx : P x) (hl : ∀ z ∈ l, P z) : P (l.foldl op x) := by
  induction l generalizing x with
  | nil => exact hx
  | cons z l ih =>
    have hz : P z := hl z (List.mem_cons_self ..)
    exact ih (h.closed hx hz) fun w hw => hl w (List.mem_cons_of_mem z hw)

lemma AssocOn.foldl_op (h : AssocOn P op) (hx : P x) (hy : P y) (hl : ∀ z ∈ l, P z) :
    l.foldl op (op x y) = op x (l.foldl op y) := by
  induction l generalizing y with
  | nil => rfl
  | cons z l ih =>
    have hz : P z := hl z (List.mem_cons_self ..)
    have hrest : ∀ w ∈ l, P w := fun w hw => hl w (List.mem_cons_of_mem z hw)
    rw [List.foldl_cons, h.assoc hx hy hz, ih (h.closed hy hz) hrest, List.foldl_cons]

lemma AssocOn.reduce_mem (h : AssocOn P op) (hne : l ≠ []) (hl : ∀ z ∈ l, P z) :
    P (reduce op l) := by
  cases l with
  | nil => exact absurd rfl hne
  | cons x l =>
    exact h.foldl_mem (hl x (List.mem_cons_self ..)) fun z hz => hl z (List.mem_cons_of_mem x hz)

/-- Two parts of a list. -/
lemma AssocOn.reduce_append (h : AssocOn P op) (hne : l ≠ []) (hne' : l' ≠ [])
    (hl : ∀ z ∈ l, P z) (hl' : ∀ z ∈ l', P z) :
    reduce op (l ++ l') = op (reduce op l) (reduce op l') := by
  cases l with
  | nil => exact absurd rfl hne
  | cons x l =>
    cases l' with
    | nil => exact absurd rfl hne'
    | cons y l' =>
      have hx : P (l.foldl op x) := h.foldl_mem (hl x (List.mem_cons_self ..)) fun z hz =>
        hl z (List.mem_cons_of_mem x hz)
      show (l ++ y :: l').foldl op x = op (l.foldl op x) (l'.foldl op y)
      rw [List.foldl_append, List.foldl_cons]
      exact h.foldl_op hx (hl' y (List.mem_cons_self ..)) fun z hz =>
        hl' z (List.mem_cons_of_mem y hz)

/-- Reducing the parts of a list and then the results reduces the list. -/
theorem AssocOn.reduce_flatten (h : AssocOn P op) {ls : List (List α)} (hne : ls ≠ [])
    (hls : ∀ l ∈ ls, l ≠ [] ∧ ∀ z ∈ l, P z) :
    reduce op ls.flatten = reduce op (ls.map (reduce op)) := by
  induction ls with
  | nil => exact absurd rfl hne
  | cons l ls ih =>
    obtain ⟨hl, hP⟩ := hls l (List.mem_cons_self ..)
    have hrest : ∀ l' ∈ ls, l' ≠ [] ∧ ∀ z ∈ l', P z := fun l' hl' =>
      hls l' (List.mem_cons_of_mem l hl')
    cases ls with
    | nil => simp [reduce]
    | cons l' ls =>
      have htail : (l' :: ls).flatten ≠ [] := by
        simp [(hrest l' (List.mem_cons_self ..)).1]
      have hPtail : ∀ z ∈ (l' :: ls).flatten, P z := by
        intro z hz
        obtain ⟨m, hm, hzm⟩ := List.mem_flatten.mp hz
        exact (hrest m hm).2 z hzm
      have hmap : ∀ z ∈ (l' :: ls).map (reduce op), P z := by
        intro z hz
        obtain ⟨m, hm, rfl⟩ := List.mem_map.mp hz
        exact h.reduce_mem (hrest m hm).1 (hrest m hm).2
      have hsingle : ∀ z ∈ [reduce op l], P z := by
        intro z hz
        rw [List.mem_singleton.mp hz]
        exact h.reduce_mem hl hP
      calc reduce op (l :: l' :: ls).flatten
          = op (reduce op l) (reduce op (l' :: ls).flatten) := by
            rw [List.flatten_cons, h.reduce_append hl htail hP hPtail]
        _ = op (reduce op l) (reduce op ((l' :: ls).map (reduce op))) := by
            rw [ih (List.cons_ne_nil _ _) hrest]
        _ = reduce op ([reduce op l] ++ (l' :: ls).map (reduce op)) := by
            rw [h.reduce_append (List.cons_ne_nil _ _) (by simp) hsingle hmap]
            rfl
        _ = reduce op ((l :: l' :: ls).map (reduce op)) := rfl

end Reduce

/-! ## Buckets -/

/-- The bucket of `n` points from `start` at the distance `step` is complete, and `v` its value. -/
def BucketValue [Inhabited α] (op : α → α → α) (series : ℤ → Option α) (step : ℤ) (n : ℕ)
    (start : ℤ) (v : α) : Prop :=
  ∃ g : ℕ → α, (∀ i < n, series (start + i * step) = some (g i)) ∧
    v = reduce op ((List.range n).map g)

/-- A range in parts of one length. -/
lemma map_range_mul (n m : ℕ) (g : ℕ → α) :
    (List.range (n * m)).map g =
      ((List.range n).map fun i => (List.range m).map fun j => g (i * m + j)).flatten := by
  induction n with
  | zero => simp
  | succ n ih =>
    rw [Nat.succ_mul, List.range_add, List.map_append, ih, List.range_succ, List.map_append,
      List.flatten_append]
    simp

section Buckets

variable [Inhabited α] {P : α → Prop} {op : α → α → α} {series coarse : ℤ → Option α}
  {step start : ℤ} {n m : ℕ} {v v' : α}

lemma BucketValue.unique (h : BucketValue op series step n start v)
    (h' : BucketValue op series step n start v') : v = v' := by
  obtain ⟨g, hg, rfl⟩ := h
  obtain ⟨g', hg', rfl⟩ := h'
  congr 1
  apply List.map_congr_left
  intro i hi
  have hlt : i < n := List.mem_range.mp hi
  exact Option.some.inj ((hg i hlt).symm.trans (hg' i hlt))

/-- Buckets of buckets: the coarse series has the values of the small buckets, and its buckets of `n`
are the buckets of `n * m` points. -/
theorem bucket_bucket (h : AssocOn P op) (hP : ∀ t x, series t = some x → P x) (hn : 0 < n)
    (hm : 0 < m)
    (hcoarse : ∀ i < n, ∀ x, coarse (start + i * (m * step)) = some x ↔
      BucketValue op series step m (start + i * (m * step)) x) :
    BucketValue op coarse (m * step) n start v ↔ BucketValue op series step (n * m) start v := by
  -- both sides aggregate the points of the small buckets
  have hreduce : ∀ g : ℕ → α, (∀ k < n * m, P (g k)) →
      reduce op ((List.range (n * m)).map g) =
        reduce op ((List.range n).map fun i =>
          reduce op ((List.range m).map fun j => g (i * m + j))) := by
    intro g hg
    rw [map_range_mul, h.reduce_flatten, List.map_map]
    · rfl
    · simpa using hn.ne'
    · intro l hl
      obtain ⟨i, hi, rfl⟩ := List.mem_map.mp hl
      have hi : i < n := List.mem_range.mp hi
      refine ⟨by simpa using hm.ne', fun z hz => ?_⟩
      obtain ⟨j, hj, rfl⟩ := List.mem_map.mp hz
      have hj : j < m := List.mem_range.mp hj
      apply hg
      calc i * m + j < i * m + m := by omega
        _ = (i + 1) * m := by ring
        _ ≤ n * m := Nat.mul_le_mul_right m hi
  have hpoint : ∀ i j : ℕ, start + i * (m * step) + j * step =
      start + ((i * m + j : ℕ) : ℤ) * step := by
    intro i j
    push_cast
    ring
  constructor
  · rintro ⟨g, hg, rfl⟩
    have hsmall : ∀ i, ∃ gi : ℕ → α, i < n →
        (∀ j < m, series (start + i * (m * step) + j * step) = some (gi j)) ∧
          g i = reduce op ((List.range m).map gi) := by
      intro i
      by_cases hi : i < n
      · obtain ⟨gi, hgi⟩ := (hcoarse i hi (g i)).mp (hg i hi)
        exact ⟨gi, fun _ => hgi⟩
      · exact ⟨fun _ => default, fun hi' => absurd hi' hi⟩
    choose small hsmall using hsmall
    have hpoints : ∀ k < n * m,
        series (start + k * step) = some (small (k / m) (k % m)) := by
      intro k hk
      have hi : k / m < n := (Nat.div_lt_iff_lt_mul hm).mpr hk
      have hvalue := (hsmall (k / m) hi).1 (k % m) (Nat.mod_lt k hm)
      rwa [hpoint, Nat.div_add_mod'] at hvalue
    refine ⟨fun k => small (k / m) (k % m), hpoints, ?_⟩
    rw [hreduce _ fun k hk => hP _ _ (hpoints k hk)]
    congr 1
    apply List.map_congr_left
    intro i hi
    rw [(hsmall i (List.mem_range.mp hi)).2]
    congr 1
    apply List.map_congr_left
    intro j hj
    have hj : j < m := List.mem_range.mp hj
    have hdiv : (i * m + j) / m = i := by
      rw [mul_comm, Nat.mul_add_div hm, Nat.div_eq_of_lt hj, add_zero]
    have hmod : (i * m + j) % m = j := by
      rw [mul_comm, Nat.mul_add_mod, Nat.mod_eq_of_lt hj]
    rw [hdiv, hmod]
  · rintro ⟨g, hg, rfl⟩
    refine ⟨fun i => reduce op ((List.range m).map fun j => g (i * m + j)), fun i hi => ?_, ?_⟩
    · rw [hcoarse i hi]
      refine ⟨fun j => g (i * m + j), fun j hj => ?_, rfl⟩
      rw [hpoint]
      apply hg
      calc i * m + j < i * m + m := by omega
        _ = (i + 1) * m := by ring
        _ ≤ n * m := Nat.mul_le_mul_right m hi
    · exact hreduce g fun k hk => hP _ _ (hg k hk)

end Buckets

end PaperTrade.Runtime
