import PaperTrade.Runtime.Float
import PaperTrade.Runtime.StableSort
import PaperTrade.Runtime.Table

/-!
# Labelled series

A pandas `Series` with an index of distinct labels, as a dictionary of floats in the order of the
index. Reductions skip NaN (`sum`, `mean`), a selection keeps the order of the index (`keep`,
`dropna`), `nlargest` and `nsmallest` give the first label of a tie (`keep="first"`), and a rank is the
average of the places of its tie.

The second part is about finite series: there the operations are those of the rational numbers.
-/

namespace PaperTrade.Runtime

/-- `Series` with distinct labels. -/
abbrev Series (ι : Type) : Type := Dict ι PyFloat

namespace Dict

variable {κ α : Type} [DecidableEq κ]

/-- `d.update({k: v for k in ks})`, for new keys. -/
lemma rows_foldl_set (v : α) {ks : List κ} (hks : ks.Nodup) {d : Dict κ α}
    (hd : ∀ k ∈ ks, d.contains k = false) :
    (ks.foldl (fun d k => set d k v) d).rows = d.rows ++ ks.map fun k => (k, v) := by
  induction ks generalizing d with
  | nil => exact (List.append_nil _).symm
  | cons k ks ih =>
    have hnew := rows_set_of_not_contains (hd k List.mem_cons_self) v
    have hks' := List.nodup_cons.mp hks
    have hrest : ∀ l ∈ ks, (set d k v).contains l = false := by
      intro l hl
      apply Bool.eq_false_iff.mpr
      intro hcontains
      rcases (contains_set d k l v).mp hcontains with rfl | hold
      · exact hks'.1 hl
      · rw [hd l (List.mem_cons_of_mem _ hl)] at hold
        exact Bool.false_ne_true hold
    rw [List.foldl_cons, ih hks'.2 hrest, hnew, List.append_assoc]
    rfl

end Dict

namespace PyFloat

/-- The number of a finite float; the others have none. -/
def toRat : PyFloat → ℚ
  | fin q => q
  | _ => 0

@[simp] lemma toRat_fin (q : ℚ) : (fin q).toRat = q := rfl

lemma fin_toRat {x : PyFloat} (h : x.isFinite = true) : fin x.toRat = x := by
  obtain ⟨q, rfl⟩ := (isFinite_iff x).mp h
  rfl

/-- `clip(lower=lo, upper=hi)`; NaN stays. -/
def clip (lo hi : ℚ) (x : PyFloat) : PyFloat :=
  if x < fin lo then fin lo else if fin hi < x then fin hi else x

lemma clip_fin {lo hi : ℚ} (h : lo ≤ hi) (q : ℚ) :
    (fin q).clip lo hi = fin (Max.max lo (Min.min hi q)) := by
  unfold clip
  simp only [fin_lt_fin]
  by_cases hlo : q < lo
  · rw [if_pos hlo, min_eq_right (hlo.le.trans h), max_eq_left hlo.le]
  · have hle : lo ≤ q := not_lt.mp hlo
    rw [if_neg hlo]
    by_cases hhi : hi < q
    · rw [if_pos hhi, min_eq_left hhi.le, sup_eq_right.mpr h]
    · rw [if_neg hhi, min_eq_right (not_lt.mp hhi), sup_eq_right.mpr hle]

end PyFloat

namespace Series

variable {ι : Type}

/-- A function of every value. -/
def map (f : PyFloat → PyFloat) (s : Series ι) : Series ι where
  rows := s.rows.map fun e => (e.1, f e.2)
  nodup_keys := by
    rw [List.map_map]
    exact s.nodup_keys

/-- `s[p(s)]`. -/
def keep (p : PyFloat → Bool) (s : Series ι) : Series ι := s.filter fun e => p e.2

/-- `s.dropna()`. -/
def dropna (s : Series ι) : Series ι := keep (fun x => x ≠ .nan) s

/-- The values. -/
def values (s : Series ι) : List PyFloat := s.rows.map Prod.snd

/-- `s.sum()`. -/
def sum (s : Series ι) : PyFloat := s.dropna.values.foldl (· + ·) 0

/-- `s.mean()`; the mean of nothing is NaN. -/
def mean (s : Series ι) : PyFloat := s.sum / .fin s.dropna.rows.length

/-- The first `n` entries that are not NaN, by a key. -/
def firstBy {κ : Type} [LinearOrder κ] (key : PyFloat → κ) (n : ℕ) (s : Series ι) : Series ι where
  rows := (sortedBy (fun e => key e.2) s.dropna.rows).take n
  nodup_keys := by
    have hperm : (sortedBy (fun e : ι × PyFloat => key e.2) s.dropna.rows).Perm s.dropna.rows :=
      perm_sortedBy _
    exact ((hperm.map Prod.fst).nodup_iff.mpr s.dropna.nodup_keys).sublist ((List.take_sublist _ _).map _)

/-- `s.nlargest(n)`. -/
def nlargest (n : ℕ) (s : Series ι) : Series ι := firstBy (fun x => OrderDual.toDual x.toExtended) n s

/-- `s.nsmallest(n)`. -/
def nsmallest (n : ℕ) (s : Series ι) : Series ι := firstBy PyFloat.toExtended n s

/-- `s.rank()` by an order of the values: the average place of the tie; NaN has no rank. -/
def rank (before : PyFloat → PyFloat → Bool) (s : Series ι) : Series ι :=
  map (fun x =>
    if x = .nan then .nan
    else .fin ((s.values.countP fun y => before y x) + ((s.values.count x : ℕ) + 1 : ℚ) / 2)) s

/-- `s.rank(pct=True)`. -/
def rankPct (s : Series ι) : Series ι :=
  map (fun x => x / .fin s.dropna.rows.length) (rank (fun y x => y < x) s)

/-- `s.rank(ascending=False)`. -/
def rankDescending (s : Series ι) : Series ι := rank (fun y x => x < y) s

/-- `s.abs()`. -/
def abs (s : Series ι) : Series ι := map PyFloat.abs s

/-- `a.subtract(b, fill_value=0.0)`, over the labels of both in order. -/
def subtractFilled (a b : Series String) : Series String where
  rows := ((a.keys ++ b.keys.filter (· ∉ a.keys)).insertionSort (· ≤ ·)).map fun k =>
    (k, (a.get? k).getD 0 - (b.get? k).getD 0)
  nodup_keys := by
    rw [List.map_map]
    have hunion : (a.keys ++ b.keys.filter (· ∉ a.keys)).Nodup := by
      apply List.Nodup.append a.nodup_keys (b.nodup_keys.filter _)
      intro k ha hb
      exact absurd ha (of_decide_eq_true (List.mem_filter.mp hb).2)
    show (List.map id _).Nodup
    rw [List.map_id]
    exact (List.perm_insertionSort _ _).nodup_iff.mpr hunion

/-! ## Members -/

@[simp] lemma rows_map (f : PyFloat → PyFloat) (s : Series ι) :
    (map f s).rows = s.rows.map fun e => (e.1, f e.2) := rfl

lemma mem_keep {p : PyFloat → Bool} {s : Series ι} {e : ι × PyFloat} :
    e ∈ (keep p s).rows ↔ e ∈ s.rows ∧ p e.2 = true := List.mem_filter

lemma mem_map {f : PyFloat → PyFloat} {s : Series ι} {e : ι × PyFloat} :
    e ∈ (map f s).rows ↔ ∃ x, (e.1, x) ∈ s.rows ∧ e.2 = f x := by
  constructor
  · intro h
    obtain ⟨e', he', rfl⟩ := List.mem_map.mp h
    exact ⟨e'.2, he', rfl⟩
  · rintro ⟨x, hx, he⟩
    exact List.mem_map.mpr ⟨(e.1, x), hx, Prod.ext rfl he.symm⟩

lemma mem_keys {s : Series ι} {k : ι} : k ∈ Dict.keys s ↔ ∃ x, (k, x) ∈ s.rows := by
  constructor
  · intro h
    obtain ⟨e, he, rfl⟩ := List.mem_map.mp h
    exact ⟨e.2, he⟩
  · rintro ⟨x, hx⟩
    exact List.mem_map.mpr ⟨(k, x), hx, rfl⟩

/-- A label has one value. -/
lemma value_unique {s : Series ι} {k : ι} {x y : PyFloat} (hx : (k, x) ∈ s.rows)
    (hy : (k, y) ∈ s.rows) : x = y :=
  congrArg Prod.snd (s.eq_of_key_eq hx hy rfl)

lemma mem_dropna {s : Series ι} {e : ι × PyFloat} :
    e ∈ s.dropna.rows ↔ e ∈ s.rows ∧ e.2 ≠ .nan := by
  rw [dropna, mem_keep, decide_eq_true_eq]

section FirstBy

variable {κ : Type} [LinearOrder κ] {key : PyFloat → κ}

lemma mem_of_mem_firstBy {n : ℕ} {s : Series ι} {e : ι × PyFloat}
    (h : e ∈ (firstBy key n s).rows) : e ∈ s.rows ∧ e.2 ≠ .nan :=
  mem_dropna.mp (mem_sortedBy.mp (List.mem_of_mem_take h))

lemma length_firstBy (n : ℕ) (s : Series ι) :
    (firstBy key n s).rows.length = min n s.dropna.rows.length := by
  rw [firstBy, List.length_take, length_sortedBy]

end FirstBy

/-! ## Finite series -/

/-- Every value is finite. -/
def Finite (s : Series ι) : Prop := ∀ e ∈ s.rows, e.2.isFinite = true

instance (s : Series ι) : Decidable (Finite s) := by
  unfold Finite
  infer_instance

lemma Finite.keep {s : Series ι} (h : s.Finite) (p : PyFloat → Bool) : (keep p s).Finite :=
  fun e he => h e (mem_keep.mp he).1

lemma rows_dropna {s : Series ι} (h : s.Finite) : s.dropna.rows = s.rows := by
  apply List.filter_eq_self.mpr
  intro e he
  obtain ⟨q, hq⟩ := (PyFloat.isFinite_iff _).mp (h e he)
  simp [hq]

lemma Finite.map {s : Series ι} {f : PyFloat → PyFloat} (hf : ∀ q, (f (.fin q)).isFinite = true)
    (h : s.Finite) : (map f s).Finite := by
  intro e he
  obtain ⟨x, hx, hef⟩ := mem_map.mp he
  obtain ⟨q, rfl⟩ := (PyFloat.isFinite_iff x).mp (h _ hx)
  rw [hef]
  exact hf q

lemma Finite.abs {s : Series ι} (h : s.Finite) : s.abs.Finite := h.map fun _ => rfl

/-- The value of an entry of a finite series. -/
lemma Finite.value {s : Series ι} (h : s.Finite) {e : ι × PyFloat} (he : e ∈ s.rows) :
    e.2 = .fin e.2.toRat := (PyFloat.fin_toRat (h e he)).symm

lemma get?_of_mem {s : Series String} {k : String} {x : PyFloat} (h : (k, x) ∈ s.rows) :
    s.get? k = some x := (Dict.get?_some_iff s k x).mpr h

lemma get?_of_not_mem {s : Series String} {k : String} (h : k ∉ s.keys) : s.get? k = none :=
  (Dict.get?_none_iff s k).mpr fun x hx => h (mem_keys.mpr ⟨x, hx⟩)

/-- A difference of series with no label in common has the entries of the one and the negated ones of
the other. -/
lemma perm_subtractFilled {a b : Series String} (ha : a.Finite) (hb : b.Finite)
    (hdisjoint : a.keys.Disjoint b.keys) :
    (subtractFilled a b).rows.Perm (a.rows ++ b.rows.map fun e => (e.1, -e.2)) := by
  have hfilter : b.keys.filter (· ∉ a.keys) = b.keys :=
    List.filter_eq_self.mpr fun k hk => decide_eq_true fun hka => hdisjoint hka hk
  show (((a.keys ++ b.keys.filter (· ∉ a.keys)).insertionSort (· ≤ ·)).map fun k =>
    (k, (a.get? k).getD 0 - (b.get? k).getD 0)).Perm _
  rw [hfilter]
  refine ((List.perm_insertionSort _ _).map _).trans (List.Perm.of_eq ?_)
  rw [List.map_append, Dict.keys, Dict.keys, List.map_map, List.map_map]
  congr 1
  · refine (List.map_congr_left fun e he => ?_).trans (List.map_id _)
    have hnone := get?_of_not_mem (s := b) fun hkb => hdisjoint (mem_keys.mpr ⟨e.2, he⟩) hkb
    show (e.1, (a.get? e.1).getD 0 - (b.get? e.1).getD 0) = e
    rw [get?_of_mem he, hnone, Option.getD_some, Option.getD_none, PyFloat.zero_eq, ha.value he,
      PyFloat.sub_fin, sub_zero, ← ha.value he]
  · refine List.map_congr_left fun e he => ?_
    have hnone := get?_of_not_mem (s := a) fun hka => hdisjoint hka (mem_keys.mpr ⟨e.2, he⟩)
    show (e.1, (a.get? e.1).getD 0 - (b.get? e.1).getD 0) = (e.1, -e.2)
    rw [get?_of_mem he, hnone, Option.getD_some, Option.getD_none, PyFloat.zero_eq, hb.value he,
      PyFloat.sub_fin, zero_sub, PyFloat.neg_fin]

lemma foldl_add_fin {l : List PyFloat} (h : ∀ x ∈ l, x.isFinite = true) (q : ℚ) :
    l.foldl (· + ·) (.fin q) = .fin (q + (l.map PyFloat.toRat).sum) := by
  induction l generalizing q with
  | nil => simp
  | cons x l ih =>
    obtain ⟨p, rfl⟩ := (PyFloat.isFinite_iff x).mp (h x List.mem_cons_self)
    rw [List.foldl_cons, PyFloat.add_fin, ih fun y hy => h y (List.mem_cons_of_mem _ hy),
      List.map_cons, List.sum_cons, PyFloat.toRat_fin, add_assoc]

lemma sum_fin {s : Series ι} (h : s.Finite) :
    s.sum = .fin (s.rows.map fun e => e.2.toRat).sum := by
  have hvalues : ∀ x ∈ s.dropna.values, x.isFinite = true := by
    intro x hx
    obtain ⟨e, he, rfl⟩ := List.mem_map.mp hx
    exact h e (mem_dropna.mp he).1
  rw [sum, PyFloat.zero_eq, foldl_add_fin hvalues, zero_add, values, rows_dropna h, List.map_map]
  rfl

/-- `sum(...)` over finite values. -/
lemma foldl_values {s : Series ι} (h : s.Finite) :
    s.values.foldl (· + ·) 0 = .fin (s.rows.map fun e => e.2.toRat).sum := by
  have hvalues : ∀ x ∈ s.values, x.isFinite = true := by
    intro x hx
    obtain ⟨e, he, rfl⟩ := List.mem_map.mp hx
    exact h e he
  rw [PyFloat.zero_eq, foldl_add_fin hvalues, zero_add, values, List.map_map]
  rfl

lemma toRat_abs {s : Series ι} (h : s.Finite) :
    (s.abs.rows.map fun e => e.2.toRat) = s.rows.map fun e => |e.2.toRat| := by
  rw [Series.abs, rows_map, List.map_map]
  refine List.map_congr_left fun e he => ?_
  show e.2.abs.toRat = |e.2.toRat|
  rw [h.value he, PyFloat.abs_fin]
  rfl

lemma mean_fin {s : Series ι} (h : s.Finite) (hs : s.rows ≠ []) :
    s.mean = .fin ((s.rows.map fun e => e.2.toRat).sum / s.rows.length) := by
  have hlength : (s.rows.length : ℚ) ≠ 0 :=
    Nat.cast_ne_zero.mpr fun h => hs (List.length_eq_zero_iff.mp h)
  rw [mean, sum_fin h, rows_dropna h, PyFloat.div_fin _ hlength]

end Series

end PaperTrade.Runtime
