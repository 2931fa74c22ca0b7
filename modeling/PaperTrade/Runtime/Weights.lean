import Mathlib.Algebra.BigOperators.Finsupp.Basic
import PaperTrade.Runtime.Table

/-!
# Weighted books

A book gives finitely many names a weight. `gross` is the sum of the absolute weights; a book is
clipped coin by coin (`clip`), scaled to a gross (`scaledTo`) and mixed with an older one (`mix`).
`Dict.weights` is the book a Python `dict` stands for, in which a name that is absent weighs zero.
-/

namespace PaperTrade.Runtime

namespace Weights

variable {ι 𝕜 : Type} [Field 𝕜] [LinearOrder 𝕜] [IsStrictOrderedRing 𝕜]

/-- The sum of the absolute weights. -/
def gross (w : ι →₀ 𝕜) : 𝕜 := w.sum fun _ x => |x|

/-- Every weight, cut at `-c` and `c`. -/
noncomputable def clip (c : 𝕜) (hc : 0 ≤ c) (w : ι →₀ 𝕜) : ι →₀ 𝕜 :=
  w.mapRange (fun x => max (-c) (min c x)) (by simp [hc])

/-- The book with the proportions of `w` whose gross is `G`. -/
noncomputable def scaledTo (G : 𝕜) (w : ι →₀ 𝕜) : ι →₀ 𝕜 := (G / gross w) • w

/-- The share `α` of `w` and the rest of `p`. -/
noncomputable def mix (α : 𝕜) (w p : ι →₀ 𝕜) : ι →₀ 𝕜 := α • w + (1 - α) • p

/-! ## The gross -/

lemma gross_eq_sum {w : ι →₀ 𝕜} {s : Finset ι} (h : w.support ⊆ s) : gross w = ∑ i ∈ s, |w i| :=
  Finsupp.sum_of_support_subset w h _ fun _ _ => abs_zero

omit [IsStrictOrderedRing 𝕜] in
@[simp] lemma gross_zero : gross (0 : ι →₀ 𝕜) = 0 := Finsupp.sum_zero_index

lemma gross_nonneg (w : ι →₀ 𝕜) : 0 ≤ gross w := Finset.sum_nonneg fun _ _ => abs_nonneg _

lemma gross_eq_zero_iff (w : ι →₀ 𝕜) : gross w = 0 ↔ w = 0 := by
  constructor
  · intro h
    ext i
    by_cases hi : i ∈ w.support
    · have hzero := (Finset.sum_eq_zero_iff_of_nonneg fun _ _ => abs_nonneg _).mp h i hi
      exact abs_eq_zero.mp hzero
    · exact Finsupp.notMem_support_iff.mp hi
  · intro h
    rw [h, gross_zero]

lemma abs_clip_apply {c : 𝕜} (hc : 0 ≤ c) (w : ι →₀ 𝕜) (i : ι) :
    |clip c hc w i| = min c |w i| := by
  show |max (-c) (min c (w i))| = min c |w i|
  by_cases hle : w i ≤ c
  · rw [min_eq_right hle]
    by_cases hge : -c ≤ w i
    · rw [max_eq_right hge, min_eq_right (abs_le.mpr ⟨hge, hle⟩)]
    · have hlt : w i < -c := not_le.mp hge
      have habs : c ≤ |w i| := le_trans (by linarith) (neg_le_abs (w i))
      rw [max_eq_left hlt.le, abs_neg, abs_of_nonneg hc, min_eq_left habs]
  · have hlt : c < w i := not_le.mp hle
    have habs : c ≤ |w i| := hlt.le.trans (le_abs_self (w i))
    have hneg : -c ≤ c := by linarith
    rw [min_eq_left hlt.le, max_eq_right hneg, abs_of_nonneg hc, min_eq_left habs]

lemma gross_clip {c : 𝕜} (hc : 0 ≤ c) (w : ι →₀ 𝕜) :
    gross (clip c hc w) = w.sum fun _ x => min c |x| := by
  rw [gross_eq_sum (w := clip c hc w) Finsupp.support_mapRange]
  exact Finset.sum_congr rfl fun i _ => abs_clip_apply hc w i

/-! ## Scaling to a gross -/

/-- A bound survives the scaling of a weight exactly when the weight's share of the gross allows it. -/
lemma abs_scaledTo_le_iff {G : 𝕜} (hG : 0 ≤ G) {w : ι →₀ 𝕜} (hw : w ≠ 0) (c : 𝕜) (i : ι) :
    |scaledTo G w i| ≤ c ↔ |w i| * G ≤ c * gross w := by
  have hpos : 0 < gross w :=
    lt_of_le_of_ne (gross_nonneg w) fun h => hw ((gross_eq_zero_iff w).mp h.symm)
  have hfactor : 0 ≤ G / gross w := div_nonneg hG hpos.le
  have hvalue : |scaledTo G w i| = |w i| * G / gross w := by
    show |G / gross w * w i| = |w i| * G / gross w
    rw [abs_mul, abs_of_nonneg hfactor]
    ring
  rw [hvalue, div_le_iff₀ hpos]

/-! ## Mixing -/

lemma abs_mix_le {α c : 𝕜} (h0 : 0 ≤ α) (h1 : α ≤ 1) {w p : ι →₀ 𝕜} {i : ι} (hw : |w i| ≤ c)
    (hp : |p i| ≤ c) : |mix α w p i| ≤ c := by
  have hrest : 0 ≤ 1 - α := sub_nonneg.mpr h1
  calc |mix α w p i| ≤ |α * w i| + |(1 - α) * p i| := abs_add_le _ _
    _ = α * |w i| + (1 - α) * |p i| := by
      rw [abs_mul, abs_mul, abs_of_nonneg h0, abs_of_nonneg hrest]
    _ ≤ α * c + (1 - α) * c :=
      add_le_add (mul_le_mul_of_nonneg_left hw h0) (mul_le_mul_of_nonneg_left hp hrest)
    _ = c := by ring

end Weights

/-! ## The book of a dictionary -/

namespace Dict

variable {κ α : Type} [DecidableEq κ]

/-- `{k: f(v) for k, v in d.items() if v}`. -/
def mapNonzero {β : Type} [Zero α] [DecidableEq α] (f : α → β) (d : Dict κ α) : Dict κ β where
  rows := (d.rows.filter fun e => e.2 ≠ 0).map fun e => (e.1, f e.2)
  nodup_keys := by
    rw [List.map_map]
    exact d.nodup_keys.sublist (List.filter_sublist.map Prod.fst)

section Weights

variable [Zero α]

/-- The weights of `d`: a key that is absent weighs zero. -/
noncomputable def weights (d : Dict κ α) : κ →₀ α :=
  Finsupp.onFinset d.keys.toFinset (fun k => (d.get? k).getD 0) fun k hk => by
    cases h : d.get? k with
    | none =>
      rw [h] at hk
      exact absurd rfl hk
    | some v =>
      have hmem := (d.get?_some_iff k v).mp h
      exact List.mem_toFinset.mpr (List.mem_map_of_mem (f := Prod.fst) hmem)

lemma weights_apply (d : Dict κ α) (k : κ) : d.weights k = (d.get? k).getD 0 := rfl

@[simp] lemma weights_empty : weights (Table.empty : Dict κ α) = 0 := rfl

lemma weights_of_mem {d : Dict κ α} {e : κ × α} (h : e ∈ d.rows) : d.weights e.1 = e.2 := by
  have hget : d.get? e.1 = some e.2 := (d.get?_some_iff e.1 e.2).mpr h
  rw [weights_apply, hget]
  rfl

lemma weights_of_not_contains {d : Dict κ α} {k : κ} (h : ∀ e ∈ d.rows, e.1 ≠ k) :
    d.weights k = 0 := by
  have hget : d.get? k = none := (d.get?_none_iff k).mpr fun v hv => h (k, v) hv rfl
  rw [weights_apply, hget]
  rfl

lemma mem_of_weights_ne_zero {d : Dict κ α} {k : κ} (h : d.weights k ≠ 0) : (k, d.weights k) ∈ d.rows := by
  rw [weights_apply] at h ⊢
  cases hget : d.get? k with
  | none =>
    rw [hget] at h
    exact absurd rfl h
  | some v => exact (d.get?_some_iff k v).mp hget

lemma weights_mapNonzero [DecidableEq α] {β : Type} [Zero β] (d : Dict κ α) (f : α → β)
    (hf : f 0 = 0) : (d.mapNonzero f).weights = d.weights.mapRange f hf := by
  ext k
  rw [Finsupp.mapRange_apply]
  by_cases hk : d.weights k = 0
  · rw [hk, hf]
    refine weights_of_not_contains fun e he hek => ?_
    obtain ⟨e', he', rfl⟩ := List.mem_map.mp he
    have hd := List.mem_filter.mp he'
    have hne : e'.2 ≠ 0 := by simpa using hd.2
    have hkey : e'.1 = k := hek
    apply hne
    rw [← weights_of_mem hd.1, hkey, hk]
  · have hmem : (k, d.weights k) ∈ d.rows.filter fun e => e.2 ≠ 0 :=
      List.mem_filter.mpr ⟨mem_of_weights_ne_zero hk, by simpa using hk⟩
    have hrow : (k, f (d.weights k)) ∈ (d.mapNonzero f).rows :=
      List.mem_map_of_mem (f := fun e => (e.1, f e.2)) hmem
    exact weights_of_mem hrow

/-- `{k: v * a for k, v in d.items() if v}`. -/
lemma weights_mapNonzero_mul {𝕜 : Type} [Field 𝕜] [DecidableEq 𝕜] (d : Dict κ 𝕜) (a : 𝕜) :
    (d.mapNonzero fun x => x * a).weights = a • d.weights := by
  have hzero : (fun x : 𝕜 => x * a) 0 = 0 := zero_mul a
  rw [weights_mapNonzero d (fun x => x * a) hzero]
  ext k
  exact mul_comm _ _

/-- `{k: g(k) for k in ks if g(k)}`, for a `g` that is zero off `ks`. -/
lemma weights_collect [DecidableEq α] (g : κ →₀ α) (ks : List κ) (h : ∀ k, g k ≠ 0 → k ∈ ks) :
    (collect (fun k => if g k ≠ 0 then some (k, g k) else none) ks).weights = g := by
  ext k
  by_cases hk : g k = 0
  · rw [hk]
    refine weights_of_not_contains fun e he hek => ?_
    obtain ⟨k', -, hk'⟩ := mem_collect _ he
    by_cases hzero : g k' = 0
    · simp [hzero] at hk'
    · simp only [ne_eq, hzero, not_false_eq_true, if_true, Option.some.injEq] at hk'
      subst hk'
      exact hzero (by rw [show k' = k from hek, hk])
  · have hcontains := (contains_collect (fun k => if g k ≠ 0 then some (k, g k) else none) ks k).mpr
      ⟨k, h k hk, g k, if_pos hk⟩
    obtain ⟨e, he, hek⟩ := (Table.contains_iff _ k).mp hcontains
    obtain ⟨k', -, hk'⟩ := mem_collect _ he
    by_cases hzero : g k' = 0
    · simp [hzero] at hk'
    · simp only [ne_eq, hzero, not_false_eq_true, if_true, Option.some.injEq] at hk'
      subst hk'
      have hkk : k' = k := hek
      subst hkk
      exact weights_of_mem he

/-- `sum(f(k, v) for k, v in d.items())`. -/
lemma sum_items {β : Type} [AddCommMonoid β] (d : Dict κ α) (f : κ → α → β) (hf : ∀ k, f k 0 = 0) :
    (d.rows.map fun e => f e.1 e.2).sum = d.weights.sum f := by
  have hsupport : d.weights.support ⊆ d.keys.toFinset := by
    intro k hk
    have hmem := mem_of_weights_ne_zero (Finsupp.mem_support_iff.mp hk)
    exact List.mem_toFinset.mpr (List.mem_map_of_mem (f := Prod.fst) hmem)
  rw [Finsupp.sum_of_support_subset _ hsupport _ fun k _ => hf k,
    List.sum_toFinset _ (Dict.nodup_keys d), keys, List.map_map]
  refine congrArg List.sum (List.map_congr_left fun e he => ?_)
  exact congrArg (f e.1) (weights_of_mem he).symm

end Weights

/-- `d[k] = d.get(k, 0.0) + v`. -/
lemma weights_set_add [AddCommMonoid α] (d : Dict κ α) (k : κ) (v : α) :
    (d.set k ((d.get? k).getD 0 + v)).weights = d.weights + Finsupp.single k v := by
  ext k'
  rw [weights_apply, get?_set, Finsupp.add_apply, weights_apply]
  by_cases h : k' = k
  · subst h
    rw [if_pos rfl, Option.getD_some, Finsupp.single_eq_same]
  · rw [if_neg h, Finsupp.single_eq_of_ne h, add_zero]

/-- `for k, v in d.items(): out[k] = out.get(k, 0.0) + a * v`. -/
lemma weights_foldl_add {𝕜 : Type} [Field 𝕜] (d out : Dict κ 𝕜) (a : 𝕜) :
    (d.rows.foldl (fun out e => out.set e.1 ((out.get? e.1).getD 0 + a * e.2)) out).weights =
      out.weights + a • d.weights := by
  have hfold : ∀ (rows : List (κ × 𝕜)) (out : Dict κ 𝕜),
      (rows.foldl (fun out e => out.set e.1 ((out.get? e.1).getD 0 + a * e.2)) out).weights =
        out.weights + (rows.map fun e => Finsupp.single e.1 (a * e.2)).sum := by
    intro rows
    induction rows with
    | nil => exact fun out => (add_zero _).symm
    | cons e rows ih =>
      intro out
      rw [List.foldl_cons, ih, weights_set_add, List.map_cons, List.sum_cons, add_assoc]
  have hsum : (d.rows.map fun e => Finsupp.single e.1 (a * e.2)).sum = a • d.weights := by
    rw [sum_items d (fun k x => Finsupp.single k (a * x)) fun k => by rw [mul_zero, Finsupp.single_zero]]
    calc d.weights.sum (fun k x => Finsupp.single k (a * x))
        = d.weights.sum (fun k x => a • Finsupp.single k x) :=
          Finsupp.sum_congr fun k _ => (Finsupp.smul_single a k _).symm
      _ = a • d.weights.sum Finsupp.single := Finsupp.smul_sum.symm
      _ = a • d.weights := by rw [Finsupp.sum_single]
  rw [hfold, hsum]

end Dict

end PaperTrade.Runtime
