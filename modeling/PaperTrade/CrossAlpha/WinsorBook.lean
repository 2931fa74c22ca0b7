import PaperTrade.CrossAlpha.Selection

/-!
# The weights of a winsorised book

When the scores have a standard deviation, every clipped z-score is a number, and the weights of a
`winsor_cont` book are those of the picked names: `picked` are the names with a clipped z-score other
than zero, with `top_k` the pools of the two sides. A picked name weighs the signed size of its clipped
z-score over the sum of all sizes (`perm_winsorWeights`).
-/

namespace PaperTrade.CrossAlpha

open PaperTrade.Runtime

section Picked

variable (num : Numerics) (spec : AlphaSpec) (latest : Series String)

/-- The names that get a weight, with their clipped z-scores. -/
def picked : List (String × PyFloat) :=
  match spec.topK with
  | some k => (longPool num spec k latest).rows ++ (shortPool num spec k latest).rows
  | none => (Series.keep (· ≠ 0) (winsorized num spec latest)).rows

/-- What a positive clipped z-score weighs before the scaling. -/
def size (q : ℚ) : ℚ :=
  match spec.topK with
  | some _ => num.pow q spec.powerP
  | none => q

/-- What a clipped z-score weighs before the scaling. -/
def signedSize (q : ℚ) : ℚ := if 0 < q then size num spec q else -size num spec (-q)

/-- The gross of the picked names before the scaling. -/
def rawGross : ℚ := ((picked num spec latest).map fun e => |signedSize num spec e.2.toRat|).sum

/-- The picked names that the filter lets through. -/
def passing (panel : Panel) : List (String × PyFloat) :=
  (picked num spec latest).filter fun e => passesFilter spec panel e.1

end Picked

variable {num : Numerics} {spec : AlphaSpec} {latest : Series String}

/-! ## Sizes -/

lemma size_pos {q : ℚ} (hq : 0 < q) : 0 < size num spec q := by
  unfold size
  cases spec.topK with
  | some k => exact num.pow_pos spec.powerP hq
  | none => exact hq

lemma size_strictMono (hp : 0 < spec.powerP) {q r : ℚ} (hq : 0 < q) (h : q < r) :
    size num spec q < size num spec r := by
  unfold size
  cases spec.topK with
  | some k => exact num.pow_lt_pow hp hq h
  | none => exact h

lemma size_mono (hp : 0 < spec.powerP) {q r : ℚ} (hq : 0 < q) (h : q ≤ r) :
    size num spec q ≤ size num spec r := by
  rcases h.lt_or_eq with hlt | rfl
  · exact (size_strictMono hp hq hlt).le
  · exact le_rfl

lemma signedSize_of_pos {q : ℚ} (hq : 0 < q) : signedSize num spec q = size num spec |q| := by
  rw [signedSize, if_pos hq, abs_of_pos hq]

lemma signedSize_of_neg {q : ℚ} (hq : q < 0) : signedSize num spec q = -size num spec |q| := by
  rw [signedSize, if_neg hq.not_gt, abs_of_neg hq]

lemma abs_signedSize {q : ℚ} (hq : q ≠ 0) : |signedSize num spec q| = size num spec |q| := by
  have hpos : 0 < size num spec |q| := size_pos (abs_pos.mpr hq)
  rcases lt_or_gt_of_ne hq with h | h
  · rw [signedSize_of_neg h, abs_neg, abs_of_pos hpos]
  · rw [signedSize_of_pos h, abs_of_pos hpos]

variable (num spec) in
lemma signedSize_ne_zero {q : ℚ} (hq : q ≠ 0) : signedSize num spec q ≠ 0 := by
  intro h
  have habs : |signedSize num spec q| = size num spec |q| := abs_signedSize hq
  rw [h, abs_zero] at habs
  exact (size_pos (abs_pos.mpr hq)).ne habs

/-! ## The clipped z-scores -/

/-- With a standard deviation every z-score is a number. -/
lemma zscored_finite {σ : ℚ} (hσ : num.std latest.values = .fin σ) (h0 : σ ≠ 0) :
    (zscored num latest).Finite := by
  intro e he
  obtain ⟨x, hx, hez⟩ := Series.mem_map.mp he
  have hvalues := num.std_finite hσ
  have hfinite : latest.Finite := fun e he => hvalues e.2 (List.mem_map_of_mem he)
  have hne : latest.rows ≠ [] := List.ne_nil_of_mem hx
  obtain ⟨q, rfl⟩ := (PyFloat.isFinite_iff x).mp (hfinite _ hx)
  have hstd : num.std latest.values ≠ 0 := by
    rw [hσ]
    exact fun h => h0 (PyFloat.fin.inj h)
  rw [hez, if_pos hstd, hσ, Series.mean_fin hfinite hne, PyFloat.sub_fin, PyFloat.div_fin _ h0]
  rfl

lemma isFinite_clip {lo hi : ℚ} (q : ℚ) : ((PyFloat.fin q).clip lo hi).isFinite = true := by
  unfold PyFloat.clip
  split_ifs <;> rfl

lemma winsorized_finite (h : (zscored num latest).Finite) : (winsorized num spec latest).Finite :=
  h.map fun q => isFinite_clip q

lemma mem_longPool {k : ℕ} {e : String × PyFloat} (he : e ∈ (longPool num spec k latest).rows) :
    e ∈ (winsorized num spec latest).rows ∧ 0 < e.2 := by
  obtain ⟨hmem, -⟩ := Series.mem_of_mem_firstBy he
  obtain ⟨hpool, hpos⟩ := Series.mem_keep.mp hmem
  exact ⟨(Series.mem_dropna.mp hpool).1, of_decide_eq_true hpos⟩

lemma mem_shortPool {k : ℕ} {e : String × PyFloat} (he : e ∈ (shortPool num spec k latest).rows) :
    e ∈ (winsorized num spec latest).rows ∧ e.2 < 0 := by
  obtain ⟨hmem, -⟩ := Series.mem_of_mem_firstBy he
  obtain ⟨hpool, hneg⟩ := Series.mem_keep.mp hmem
  exact ⟨(Series.mem_dropna.mp hpool).1, of_decide_eq_true hneg⟩

/-- A picked name has a clipped z-score other than zero. -/
lemma mem_picked (h : (winsorized num spec latest).Finite) {e : String × PyFloat}
    (he : e ∈ picked num spec latest) :
    e ∈ (winsorized num spec latest).rows ∧ e.2 = .fin e.2.toRat ∧ e.2.toRat ≠ 0 := by
  have hmem : e ∈ (winsorized num spec latest).rows ∧ e.2 ≠ 0 := by
    unfold picked at he
    cases hk : spec.topK with
    | none =>
      rw [hk] at he
      obtain ⟨hrow, hne⟩ := Series.mem_keep.mp he
      exact ⟨hrow, of_decide_eq_true hne⟩
    | some k =>
      rw [hk] at he
      rcases List.mem_append.mp he with hlong | hshort
      · obtain ⟨hrow, hpos⟩ := mem_longPool hlong
        refine ⟨hrow, fun h0 => ?_⟩
        rw [h0, PyFloat.zero_eq, PyFloat.fin_lt_fin] at hpos
        exact lt_irrefl 0 hpos
      · obtain ⟨hrow, hneg⟩ := mem_shortPool hshort
        refine ⟨hrow, fun h0 => ?_⟩
        rw [h0, PyFloat.zero_eq, PyFloat.fin_lt_fin] at hneg
        exact lt_irrefl 0 hneg
  have hvalue := h.value hmem.1
  refine ⟨hmem.1, hvalue, fun h0 => hmem.2 ?_⟩
  rw [hvalue, h0]
  rfl

/-! ## The weights before the filter -/

lemma mem_powered {pool : Series String} (h : pool.Finite) {e : String × PyFloat} :
    e ∈ (powered num spec pool).rows ↔
      ∃ q, (e.1, .fin q) ∈ pool.rows ∧ e.2 = .fin (num.pow |q| spec.powerP) := by
  rw [powered, Series.mem_map]
  constructor
  · rintro ⟨x, hx, he⟩
    obtain ⟨q, rfl⟩ := (PyFloat.isFinite_iff x).mp (h _ hx)
    exact ⟨q, hx, he⟩
  · rintro ⟨q, hq, he⟩
    exact ⟨.fin q, hq, he⟩

/-- The entries of a powered pool, name by name. -/
lemma rows_powered {pool : Series String} (h : pool.Finite) :
    (powered num spec pool).rows =
      pool.rows.map fun e => (e.1, .fin (num.pow |e.2.toRat| spec.powerP)) := by
  rw [powered, Series.rows_map]
  refine List.map_congr_left fun e he => ?_
  rw [h.value he, PyFloat.abs_fin, PyFloat.toRat_fin]

lemma powered_finite {pool : Series String} (h : pool.Finite) : (powered num spec pool).Finite :=
  h.map fun _ => rfl

/-- The two pools share no name. -/
lemma disjoint_pools {k : ℕ} :
    ((longPool num spec k latest).keys).Disjoint (shortPool num spec k latest).keys := by
  intro name hlong hshort
  obtain ⟨x, hx⟩ := Series.mem_keys.mp hlong
  obtain ⟨y, hy⟩ := Series.mem_keys.mp hshort
  obtain ⟨hxrow, hpos⟩ := mem_longPool hx
  obtain ⟨hyrow, hneg⟩ := mem_shortPool hy
  rw [Series.value_unique hxrow hyrow] at hpos
  cases y with
  | nan => exact PyFloat.not_nan_lt _ hneg
  | inf s => cases s <;> first | exact Bool.false_ne_true hpos | exact Bool.false_ne_true hneg
  | fin q =>
    rw [PyFloat.zero_eq, PyFloat.fin_lt_fin] at hpos hneg
    exact lt_asymm hpos hneg

/-- What is scaled: every picked name with its signed size, and names without a weight. -/
lemma perm_raw (h : (winsorized num spec latest).Finite) :
    ((raw num spec latest).rows.filter fun e => e.2 ≠ 0).Perm
      ((picked num spec latest).map fun e => (e.1, .fin (signedSize num spec e.2.toRat))) := by
  have hvalue := fun e he => mem_picked (e := e) h he
  unfold picked at hvalue ⊢
  unfold raw
  cases hk : spec.topK with
  | none =>
    rw [hk] at hvalue
    refine List.Perm.of_eq ((List.map_congr_left fun e he => ?_).trans (List.map_id _)).symm
    obtain ⟨-, heq, -⟩ := hvalue e he
    have hsize : signedSize num spec e.2.toRat = e.2.toRat := by
      unfold signedSize size
      rw [hk]
      dsimp only
      split
      · rfl
      · exact neg_neg _
    rw [hsize, ← heq]
    rfl
  | some k =>
    rw [hk] at hvalue
    have hlong : (longPool num spec k latest).Finite := fun e he => h e (mem_longPool he).1
    have hshort : (shortPool num spec k latest).Finite := fun e he => h e (mem_shortPool he).1
    have hkeys : ((powered num spec (longPool num spec k latest)).keys).Disjoint
        (powered num spec (shortPool num spec k latest)).keys := by
      rw [Dict.keys, Dict.keys, rows_powered hlong, rows_powered hshort, List.map_map, List.map_map]
      exact disjoint_pools
    have hperm := Series.perm_subtractFilled (powered_finite hlong) (powered_finite hshort) hkeys
    -- the sizes of both pools, with the signs of their scores
    have hrows : (powered num spec (longPool num spec k latest)).rows ++
        ((powered num spec (shortPool num spec k latest)).rows.map fun e => (e.1, -e.2)) =
        ((longPool num spec k latest).rows ++ (shortPool num spec k latest).rows).map
          fun e => (e.1, .fin (signedSize num spec e.2.toRat)) := by
      have hsize : ∀ q, size num spec q = num.pow q spec.powerP := by
        intro q
        unfold size
        rw [hk]
      rw [rows_powered hlong, rows_powered hshort, List.map_append, List.map_map]
      congr 1
      · refine List.map_congr_left fun e he => ?_
        have hpos := (mem_longPool he).2
        rw [hlong.value he, PyFloat.zero_eq, PyFloat.fin_lt_fin] at hpos
        rw [signedSize_of_pos hpos, hsize]
      · refine List.map_congr_left fun e he => ?_
        have hneg := (mem_shortPool he).2
        rw [hshort.value he, PyFloat.zero_eq, PyFloat.fin_lt_fin] at hneg
        rw [signedSize_of_neg hneg, hsize]
        rfl
    rw [hrows] at hperm
    refine (hperm.filter _).trans (List.Perm.of_eq (List.filter_eq_self.mpr fun e he => ?_))
    obtain ⟨e', he', rfl⟩ := List.mem_map.mp he
    have hne := signedSize_ne_zero num spec (hvalue e' he').2.2
    exact decide_eq_true fun h0 => hne (PyFloat.fin.inj h0)

lemma raw_finite (h : (winsorized num spec latest).Finite) : (raw num spec latest).Finite := by
  intro e he
  by_cases h0 : e.2 = 0
  · rw [h0]
    rfl
  · have hfilter : e ∈ (raw num spec latest).rows.filter fun e => e.2 ≠ 0 :=
      List.mem_filter.mpr ⟨he, decide_eq_true h0⟩
    obtain ⟨e', -, rfl⟩ := List.mem_map.mp ((perm_raw h).mem_iff.mp hfilter)
    rfl

lemma sum_filter_ne_zero {l : List (String × PyFloat)} (h : ∀ e ∈ l, e.2.isFinite = true) :
    ((l.filter fun e => e.2 ≠ 0).map fun e => |e.2.toRat|).sum = (l.map fun e => |e.2.toRat|).sum := by
  induction l with
  | nil => rfl
  | cons e l ih =>
    have hrest := ih fun e' he' => h e' (List.mem_cons_of_mem _ he')
    by_cases h0 : e.2 = 0
    · rw [List.filter_cons_of_neg (by simpa using h0), hrest, List.map_cons, List.sum_cons, h0]
      exact (zero_add _).symm
    · rw [List.filter_cons_of_pos (by simpa using h0), List.map_cons, List.map_cons, List.sum_cons,
        List.sum_cons, hrest]

/-- The gross that the weights are divided by. -/
lemma sum_abs_raw (h : (winsorized num spec latest).Finite) :
    (raw num spec latest).abs.sum = .fin (rawGross num spec latest) := by
  have hfinite := raw_finite h
  have hperm := ((perm_raw h).map fun e => |e.2.toRat|).sum_eq
  rw [List.map_map, sum_filter_ne_zero hfinite] at hperm
  rw [Series.sum_fin hfinite.abs, Series.toRat_abs hfinite, hperm]
  rfl

lemma rawGross_pos (h : (winsorized num spec latest).Finite) (hne : picked num spec latest ≠ []) :
    0 < rawGross num spec latest := by
  obtain ⟨e, he⟩ := List.exists_mem_of_ne_nil _ hne
  have hsize := signedSize_ne_zero num spec (mem_picked h he).2.2
  apply lt_of_lt_of_le (abs_pos.mpr hsize)
  apply List.single_le_sum
  · intro x hx
    obtain ⟨e', -, rfl⟩ := List.mem_map.mp hx
    exact abs_nonneg _
  · exact List.mem_map_of_mem he

/-- A picked name that passes the filter weighs its signed size over the gross of the picked names. -/
lemma perm_winsorWeights (h : (winsorized num spec latest).Finite) (panel : Panel) :
    (winsorWeights num spec panel latest).rows.Perm ((passing num spec latest panel).map fun e =>
      (e.1, .fin (signedSize num spec e.2.toRat / rawGross num spec latest))) := by
  have hscaled : (Series.keep (· ≠ 0) (scaled num spec latest)).rows.Perm
      ((picked num spec latest).map fun e =>
        (e.1, .fin (signedSize num spec e.2.toRat / rawGross num spec latest))) := by
    unfold scaled
    dsimp only
    rw [sum_abs_raw h, PyFloat.zero_eq]
    by_cases hpicked : picked num spec latest = []
    · -- nothing to scale: no entry is other than zero
      have hraw := perm_raw h
      rw [hpicked] at hraw
      have hgross : rawGross num spec latest = 0 := by rw [rawGross, hpicked]; rfl
      rw [hgross, if_neg (by simp), hpicked]
      exact hraw
    · have hpos := rawGross_pos h hpicked
      rw [if_pos ((PyFloat.fin_lt_fin _ _).mpr hpos)]
      show ((List.map _ _).filter _).Perm _
      rw [List.filter_map]
      have hsame : ((raw num spec latest).rows.filter
          ((fun e => decide (e.2 ≠ 0)) ∘ fun e : String × PyFloat =>
            (e.1, e.2 / .fin (rawGross num spec latest)))) =
          (raw num spec latest).rows.filter fun e => e.2 ≠ 0 := by
        refine List.filter_congr fun e he => ?_
        rw [Function.comp_apply, (raw_finite h).value he, PyFloat.div_fin _ hpos.ne']
        simp [hpos.ne']
      refine (List.Perm.of_eq (congrArg (List.map fun e : String × PyFloat =>
        (e.1, e.2 / .fin (rawGross num spec latest))) hsame)).trans ?_
      refine ((perm_raw h).map _).trans (List.Perm.of_eq ?_)
      rw [List.map_map]
      refine List.map_congr_left fun e _ => ?_
      show (e.1, _ / _) = _
      rw [PyFloat.div_fin _ hpos.ne']
  refine (hscaled.filter _).trans (List.Perm.of_eq ?_)
  rw [List.filter_map]
  rfl

end PaperTrade.CrossAlpha
