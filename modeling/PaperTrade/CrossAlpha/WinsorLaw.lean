import PaperTrade.CrossAlpha.WinsorBook

/-!
# What a winsorised book promises

A `winsor_cont` book is meant to have gross one, weights with the signs of their z-scores that grow with
the clipped z-scores, at most `top_k` names a side and, when it is balanced, as many longs as shorts
(`WinsorLaw`). Every step of the construction keeps the weights proportional to the signed sizes
(`Sized`), which gives all of it but the gross. The gross is lost when the liquidity filter takes a part
of the book and no balance follows that would scale the rest again (`winsorLaw_iff`).
-/

namespace PaperTrade.CrossAlpha

open PaperTrade.Runtime

/-- The postcondition of `winsor_cont`. -/
structure WinsorLaw (num : Numerics) (spec : AlphaSpec) (latest : Series String) (s : Selection) :
    Prop where
  gross : s.weights.rows = [] ∨ grossOf s.weights = 1
  sign : ∀ e ∈ s.weights.rows, ∃ z, (e.1, .fin z) ∈ (zscored num latest).rows ∧
    (0 < e.2 ∧ 0 < z ∨ e.2 < 0 ∧ z < 0)
  monotone : ∀ e ∈ s.weights.rows, ∀ f ∈ s.weights.rows, (0 < e.2 ↔ 0 < f.2) →
    ∀ q r, (e.1, .fin q) ∈ (winsorized num spec latest).rows →
      (f.1, .fin r) ∈ (winsorized num spec latest).rows → |q| ≤ |r| → e.2.abs ≤ f.2.abs
  topK : ∀ k, spec.topK = some k → s.longs.length ≤ k ∧ s.shorts.length ≤ k
  balanced : spec.balanced = true → s.longs ≠ [] → s.shorts ≠ [] → s.longs.length = s.shorts.length

/-- The filter takes no picked name or all of them, or a balance follows: both sides have names that
pass, and not as many. -/
def KeepsGross (num : Numerics) (spec : AlphaSpec) (panel : Panel) (latest : Series String) : Prop :=
  (∀ e ∈ picked num spec latest, passesFilter spec panel e.1 = true) ∨
    passing num spec latest panel = [] ∨
    spec.balanced = true ∧
      0 < (passing num spec latest panel).countP (fun e => 0 < e.2) ∧
      0 < (passing num spec latest panel).countP (fun e => e.2 < 0) ∧
      (passing num spec latest panel).countP (fun e => 0 < e.2) ≠
        (passing num spec latest panel).countP (fun e => e.2 < 0)

instance (num : Numerics) (spec : AlphaSpec) (panel : Panel) (latest : Series String) :
    Decidable (KeepsGross num spec panel latest) := by
  unfold KeepsGross
  infer_instance

variable {num : Numerics} {spec : AlphaSpec} {latest : Series String}

/-! ## Proportional weights -/

/-- Every weight is the signed size of its name's clipped z-score, up to one positive factor. -/
def Sized (num : Numerics) (spec : AlphaSpec) (latest weights : Series String) : Prop :=
  ∃ c, 0 < c ∧ ∀ e ∈ weights.rows, ∃ q, q ≠ 0 ∧
    (e.1, .fin q) ∈ (winsorized num spec latest).rows ∧ e.2 = .fin (signedSize num spec q * c)

lemma Sized.finite {weights : Series String} (h : Sized num spec latest weights) :
    weights.Finite := by
  obtain ⟨c, -, hrows⟩ := h
  intro e he
  obtain ⟨q, -, -, hvalue⟩ := hrows e he
  rw [hvalue]
  rfl

lemma Sized.filter {weights : Series String} (h : Sized num spec latest weights)
    (p : String × PyFloat → Bool) : Sized num spec latest (weights.filter p) := by
  obtain ⟨c, hc, hrows⟩ := h
  exact ⟨c, hc, fun e he => hrows e (List.mem_filter.mp he).1⟩

lemma Sized.div {weights : Series String} (h : Sized num spec latest weights) {g : ℚ} (hg : 0 < g) :
    Sized num spec latest (Series.map (fun w => w / .fin g) weights) := by
  obtain ⟨c, hc, hrows⟩ := h
  refine ⟨c / g, div_pos hc hg, fun e he => ?_⟩
  obtain ⟨x, hx, hvalue⟩ := Series.mem_map.mp he
  obtain ⟨q, hq, hz, hx'⟩ := hrows _ hx
  have hx'' : x = .fin (signedSize num spec q * c) := hx'
  refine ⟨q, hq, hz, ?_⟩
  rw [hvalue, hx'', PyFloat.div_fin _ hg.ne', mul_div_assoc]

lemma winsorWeights_sized (h : (winsorized num spec latest).Finite) (panel : Panel) :
    Sized num spec latest (winsorWeights num spec panel latest) := by
  have hperm := perm_winsorWeights h panel
  by_cases hpicked : picked num spec latest = []
  · refine ⟨1, one_pos, fun e he => ?_⟩
    have hmem := hperm.mem_iff.mp he
    rw [passing, hpicked] at hmem
    cases hmem
  · refine ⟨(rawGross num spec latest)⁻¹, inv_pos.mpr (rawGross_pos h hpicked), fun e he => ?_⟩
    obtain ⟨e', he', rfl⟩ := List.mem_map.mp (hperm.mem_iff.mp he)
    obtain ⟨hrow, hvalue, hne⟩ := mem_picked h (List.mem_filter.mp he').1
    refine ⟨e'.2.toRat, hne, ?_, by rw [div_eq_mul_inv]⟩
    rw [← hvalue]
    exact hrow

/-- The balance scales by a positive number. -/
lemma Sized.balanceSides {weights : Series String} (h : Sized num spec latest weights) :
    Sized num spec latest (balanceSides spec weights).weights := by
  unfold CrossAlpha.balanceSides
  by_cases htrim : IsTrimmed spec weights
  · rw [if_pos htrim]
    dsimp only
    have hkept := h.filter fun e => e.1 ∉ surplus weights
    rw [grossOf_fin hkept.finite]
    by_cases hpos : (0 : PyFloat) <
        .fin (((weights.filter fun e => e.1 ∉ surplus weights).rows.map fun e => |e.2.toRat|).sum)
    · rw [if_pos hpos]
      exact hkept.div ((PyFloat.fin_lt_fin _ _).mp hpos)
    · rw [if_neg hpos]
      exact hkept
  · rw [if_neg htrim]
    exact h

/-! ## Signs and sizes -/

/-- A clipped z-score has the sign of the z-score. -/
lemma mem_zscored (hk : 0 < spec.winsorK) (h : (zscored num latest).Finite) {name : String} {q : ℚ}
    (hq : (name, .fin q) ∈ (winsorized num spec latest).rows) :
    ∃ z, (name, .fin z) ∈ (zscored num latest).rows ∧ (0 < q → 0 < z) ∧ (q < 0 → z < 0) := by
  obtain ⟨x, hx, hclip⟩ := Series.mem_map.mp hq
  obtain ⟨z, rfl⟩ := (PyFloat.isFinite_iff x).mp (h _ hx)
  have hbounds : min (-spec.winsorK) spec.winsorK ≤ max (-spec.winsorK) spec.winsorK := min_le_max
  have hle : -spec.winsorK ≤ spec.winsorK := by linarith
  dsimp only at hclip
  rw [PyFloat.clip_fin hbounds, min_eq_left hle, max_eq_right hle] at hclip
  have hvalue : q = max (-spec.winsorK) (min spec.winsorK z) := PyFloat.fin.inj hclip
  refine ⟨z, hx, fun hpos => ?_, fun hneg => ?_⟩
  · rcases lt_max_iff.mp (hvalue ▸ hpos) with hlt | hlt
    · linarith
    · exact (lt_min_iff.mp hlt).2
  · rcases min_lt_iff.mp (max_lt_iff.mp (hvalue ▸ hneg)).2 with hlt | hlt
    · linarith
    · exact hlt

variable (num spec) in
/-- The sign of a weight is that of its clipped z-score. -/
lemma signedSize_mul_pos_iff {q c : ℚ} (hq : q ≠ 0) (hc : 0 < c) :
    0 < signedSize num spec q * c ↔ 0 < q := by
  have hsize : 0 < size num spec |q| := size_pos (abs_pos.mpr hq)
  rw [mul_pos_iff_of_pos_right hc]
  rcases lt_or_gt_of_ne hq with h | h
  · rw [signedSize_of_neg h]
    constructor
    · intro hpos
      linarith
    · intro hpos
      exact absurd hpos h.not_gt
  · rw [signedSize_of_pos h]
    exact ⟨fun _ => h, fun _ => hsize⟩

lemma signedSize_mul_neg_iff {q c : ℚ} (hq : q ≠ 0) (hc : 0 < c) :
    signedSize num spec q * c < 0 ↔ q < 0 := by
  have hpos := signedSize_mul_pos_iff num spec hq hc
  have hne : signedSize num spec q * c ≠ 0 := mul_ne_zero (signedSize_ne_zero num spec hq) hc.ne'
  constructor
  · intro h
    exact lt_of_le_of_ne (not_lt.mp fun hq' => h.not_gt (hpos.mpr hq')) hq
  · intro h
    exact lt_of_le_of_ne (not_lt.mp fun hw => h.not_gt (hpos.mp hw)) hne

lemma Sized.sign {weights : Series String} (h : Sized num spec latest weights)
    (hk : 0 < spec.winsorK) (hz : (zscored num latest).Finite) :
    ∀ e ∈ weights.rows, ∃ z, (e.1, .fin z) ∈ (zscored num latest).rows ∧
      (0 < e.2 ∧ 0 < z ∨ e.2 < 0 ∧ z < 0) := by
  obtain ⟨c, hc, hrows⟩ := h
  intro e he
  obtain ⟨q, hq, hrow, hvalue⟩ := hrows e he
  obtain ⟨z, hzrow, hpos, hneg⟩ := mem_zscored hk hz hrow
  refine ⟨z, hzrow, ?_⟩
  rw [hvalue, PyFloat.zero_eq, PyFloat.fin_lt_fin, PyFloat.fin_lt_fin, signedSize_mul_pos_iff num spec hq hc,
    signedSize_mul_neg_iff hq hc]
  rcases lt_or_gt_of_ne hq with hlt | hgt
  · exact .inr ⟨hlt, hneg hlt⟩
  · exact .inl ⟨hgt, hpos hgt⟩

lemma Sized.monotone {weights : Series String} (h : Sized num spec latest weights)
    (hp : 0 < spec.powerP) : ∀ e ∈ weights.rows, ∀ f ∈ weights.rows, ∀ q r,
      (e.1, .fin q) ∈ (winsorized num spec latest).rows →
      (f.1, .fin r) ∈ (winsorized num spec latest).rows → |q| ≤ |r| → e.2.abs ≤ f.2.abs := by
  obtain ⟨c, hc, hrows⟩ := h
  intro e he f hf q r hqrow hrrow hle
  obtain ⟨q', hq, hq'row, hevalue⟩ := hrows e he
  obtain ⟨r', hr, hr'row, hfvalue⟩ := hrows f hf
  have hqq : q' = q := PyFloat.fin.inj (Series.value_unique hq'row hqrow)
  have hrr : r' = r := PyFloat.fin.inj (Series.value_unique hr'row hrrow)
  subst hqq hrr
  rw [hevalue, hfvalue, PyFloat.abs_fin, PyFloat.abs_fin, PyFloat.fin_le_fin, abs_mul, abs_mul,
    abs_signedSize hq, abs_signedSize hr]
  exact mul_le_mul_of_nonneg_right (size_mono hp (abs_pos.mpr hq) hle) (abs_nonneg c)

/-! ## The sides -/

lemma mem_longsOf {weights : Series String} {name : String} :
    name ∈ longsOf weights ↔ ∃ x, (name, x) ∈ weights.rows ∧ 0 < x := by
  rw [longsOf, sortedNames, List.mem_insertionSort, Series.mem_keys]
  simp only [Series.mem_keep, decide_eq_true_eq]

lemma mem_shortsOf {weights : Series String} {name : String} :
    name ∈ shortsOf weights ↔ ∃ x, (name, x) ∈ weights.rows ∧ x < 0 := by
  rw [shortsOf, sortedNames, List.mem_insertionSort, Series.mem_keys]
  simp only [Series.mem_keep, decide_eq_true_eq]

lemma nodup_longsOf (weights : Series String) : (longsOf weights).Nodup :=
  (List.perm_insertionSort _ _).nodup_iff.mpr (Dict.nodup_keys _)

lemma nodup_shortsOf (weights : Series String) : (shortsOf weights).Nodup :=
  (List.perm_insertionSort _ _).nodup_iff.mpr (Dict.nodup_keys _)

/-- The sides share no name. -/
lemma disjoint_sides {weights : Series String} (h : weights.Finite) :
    (longsOf weights).Disjoint (shortsOf weights) := by
  intro name hlong hshort
  obtain ⟨x, hx, hpos⟩ := mem_longsOf.mp hlong
  obtain ⟨y, hy, hneg⟩ := mem_shortsOf.mp hshort
  obtain ⟨q, rfl⟩ := (PyFloat.isFinite_iff x).mp (h _ hx)
  rw [← Series.value_unique hx hy, PyFloat.zero_eq, PyFloat.fin_lt_fin] at hneg
  rw [PyFloat.zero_eq, PyFloat.fin_lt_fin] at hpos
  exact lt_asymm hpos hneg

lemma length_longsOf (weights : Series String) :
    (longsOf weights).length = weights.rows.countP fun e => 0 < e.2 := by
  rw [longsOf, sortedNames, (List.perm_insertionSort _ _).length_eq, Dict.keys, List.length_map,
    List.countP_eq_length_filter]
  rfl

lemma length_shortsOf (weights : Series String) :
    (shortsOf weights).length = weights.rows.countP fun e => e.2 < 0 := by
  rw [shortsOf, sortedNames, (List.perm_insertionSort _ _).length_eq, Dict.keys, List.length_map,
    List.countP_eq_length_filter]
  rfl

/-- The weights count as their clipped z-scores do. -/
lemma length_sides (h : (winsorized num spec latest).Finite) (panel : Panel) :
    (longsOf (winsorWeights num spec panel latest)).length =
        (passing num spec latest panel).countP (fun e => 0 < e.2) ∧
      (shortsOf (winsorWeights num spec panel latest)).length =
        (passing num spec latest panel).countP (fun e => e.2 < 0) := by
  have hperm := perm_winsorWeights h panel
  have hgross : ∀ e ∈ passing num spec latest panel, 0 < (rawGross num spec latest)⁻¹ :=
    fun e he => inv_pos.mpr (rawGross_pos h (List.ne_nil_of_mem (List.mem_filter.mp he).1))
  constructor
  · rw [length_longsOf, hperm.countP_eq, List.countP_map]
    refine List.countP_congr fun e he => ?_
    obtain ⟨-, hvalue, hne⟩ := mem_picked h (List.mem_filter.mp he).1
    rw [Function.comp_apply, decide_eq_true_eq, decide_eq_true_eq, hvalue, PyFloat.zero_eq,
      PyFloat.fin_lt_fin, PyFloat.fin_lt_fin, PyFloat.toRat_fin, div_eq_mul_inv]
    exact signedSize_mul_pos_iff num spec hne (hgross e he)
  · rw [length_shortsOf, hperm.countP_eq, List.countP_map]
    refine List.countP_congr fun e he => ?_
    obtain ⟨-, hvalue, hne⟩ := mem_picked h (List.mem_filter.mp he).1
    rw [Function.comp_apply, decide_eq_true_eq, decide_eq_true_eq, hvalue, PyFloat.zero_eq,
      PyFloat.fin_lt_fin, PyFloat.fin_lt_fin, PyFloat.toRat_fin, div_eq_mul_inv]
    exact signedSize_mul_neg_iff hne (hgross e he)

/-- With `top_k` a side has no more names than its pool. -/
lemma length_sides_le (h : (winsorized num spec latest).Finite) (panel : Panel) {k : ℕ}
    (hk : spec.topK = some k) :
    (longsOf (winsorWeights num spec panel latest)).length ≤ k ∧
      (shortsOf (winsorWeights num spec panel latest)).length ≤ k := by
  have hlongPool : (longPool num spec k latest).rows.length ≤ k := by
    rw [longPool, Series.nlargest, Series.length_firstBy]
    exact Nat.min_le_left ..
  have hshortPool : (shortPool num spec k latest).rows.length ≤ k := by
    rw [shortPool, Series.nsmallest, Series.length_firstBy]
    exact Nat.min_le_left ..
  have hpicked : picked num spec latest =
      (longPool num spec k latest).rows ++ (shortPool num spec k latest).rows := by
    unfold picked
    rw [hk]
  have hnolong : (shortPool num spec k latest).rows.countP (fun e => 0 < e.2) = 0 := by
    refine List.countP_eq_zero.mpr fun e he => ?_
    obtain ⟨hrow, hneg⟩ := mem_shortPool he
    rw [decide_eq_true_eq]
    rw [h.value hrow, PyFloat.zero_eq, PyFloat.fin_lt_fin] at hneg ⊢
    exact hneg.not_gt
  have hnoshort : (longPool num spec k latest).rows.countP (fun e => e.2 < 0) = 0 := by
    refine List.countP_eq_zero.mpr fun e he => ?_
    obtain ⟨hrow, hpos⟩ := mem_longPool he
    rw [decide_eq_true_eq]
    rw [h.value hrow, PyFloat.zero_eq, PyFloat.fin_lt_fin] at hpos ⊢
    exact hpos.not_gt
  obtain ⟨hlongs, hshorts⟩ := length_sides h panel
  have hsublist : (passing num spec latest panel).Sublist (picked num spec latest) :=
    List.filter_sublist
  rw [hlongs, hshorts]
  constructor
  · calc (passing num spec latest panel).countP (fun e => 0 < e.2)
        ≤ (picked num spec latest).countP (fun e => 0 < e.2) := hsublist.countP_le
      _ = (longPool num spec k latest).rows.countP fun e => 0 < e.2 := by
        rw [hpicked, List.countP_append, hnolong, Nat.add_zero]
      _ ≤ k := List.countP_le_length.trans hlongPool
  · calc (passing num spec latest panel).countP (fun e => e.2 < 0)
        ≤ (picked num spec latest).countP (fun e => e.2 < 0) := hsublist.countP_le
      _ = (shortPool num spec k latest).rows.countP fun e => e.2 < 0 := by
        rw [hpicked, List.countP_append, hnoshort, Nat.zero_add]
      _ ≤ k := List.countP_le_length.trans hshortPool

/-! ## The balance -/

/-- Taking some of a list out of it. -/
lemma length_filter_not_mem {l m : List String} (hl : l.Nodup) (hm : m.Nodup) (h : m ⊆ l) :
    (l.filter (· ∉ m)).length + m.length = l.length := by
  have hin : (l.filter (· ∈ m)).Perm m := by
    refine (List.perm_ext_iff_of_nodup (hl.filter _) hm).mpr fun a => ?_
    rw [List.mem_filter, decide_eq_true_eq]
    exact ⟨fun ha => ha.2, fun ha => ⟨h ha, ha⟩⟩
  have hsplit := List.length_eq_length_filter_add (l := l) fun a => decide (a ∈ m)
  have hnot : (l.filter fun a => !decide (a ∈ m)) = l.filter (· ∉ m) :=
    List.filter_congr fun a _ => by simp
  rw [hnot, hin.length_eq] at hsplit
  omega

lemma filter_not_mem_of_disjoint {l m : List String} (h : l.Disjoint m) :
    l.filter (· ∉ m) = l :=
  List.filter_eq_self.mpr fun _ ha => decide_eq_true fun hm => h ha hm

/-- The names cut off are some of the longer side, as many as it has more. -/
lemma surplus_cases (weights : Series String) :
    ((shortsOf weights).length < (longsOf weights).length ∧ surplus weights ⊆ longsOf weights ∧
        (surplus weights).Nodup ∧
        (surplus weights).length = (longsOf weights).length - (shortsOf weights).length) ∨
      (longsOf weights).length ≤ (shortsOf weights).length ∧ surplus weights ⊆ shortsOf weights ∧
        (surplus weights).Nodup ∧
        (surplus weights).length = (shortsOf weights).length - (longsOf weights).length := by
  unfold surplus
  dsimp only
  by_cases hlonger : (shortsOf weights).length < (longsOf weights).length
  · left
    have hmin : min (longsOf weights).length (shortsOf weights).length = (shortsOf weights).length :=
      Nat.min_eq_right hlonger.le
    rw [hmin, if_pos hlonger]
    refine ⟨hlonger, fun a ha => mem_sortedBy.mp (List.mem_of_mem_take ha), ?_, ?_⟩
    · exact ((perm_sortedBy _).nodup_iff.mpr (nodup_longsOf weights)).sublist (List.take_sublist _ _)
    · rw [List.length_take, length_sortedBy]
      omega
  · right
    have hle : (longsOf weights).length ≤ (shortsOf weights).length := Nat.not_lt.mp hlonger
    rw [Nat.min_eq_left hle, if_neg (Nat.lt_irrefl _)]
    refine ⟨hle, fun a ha => mem_sortedBy.mp (List.mem_of_mem_take ha), ?_, ?_⟩
    · exact ((perm_sortedBy _).nodup_iff.mpr (nodup_shortsOf weights)).sublist (List.take_sublist _ _)
    · rw [List.length_take, length_sortedBy]
      omega

/-- The balance leaves both sides as long as the shorter one. -/
lemma length_balanced {weights : Series String} (h : weights.Finite)
    (htrim : IsTrimmed spec weights) :
    (balanceSides spec weights).longs.length =
        min (longsOf weights).length (shortsOf weights).length ∧
      (balanceSides spec weights).shorts.length =
        min (longsOf weights).length (shortsOf weights).length := by
  have hdisjoint := disjoint_sides h
  unfold balanceSides
  rw [if_pos htrim]
  dsimp only
  rcases surplus_cases weights with ⟨hlt, hsub, hnodup, hlength⟩ | ⟨hle, hsub, hnodup, hlength⟩
  · have hshorts := filter_not_mem_of_disjoint fun a ha hs => hdisjoint (hsub hs) ha
    have hlongs := length_filter_not_mem (nodup_longsOf weights) hnodup hsub
    rw [hshorts]
    omega
  · have hlongs := filter_not_mem_of_disjoint fun a ha hs => hdisjoint ha (hsub hs)
    have hshorts := length_filter_not_mem (nodup_shortsOf weights) hnodup hsub
    rw [hlongs]
    omega

/-! ## The gross -/

lemma sum_map_div {α : Type} (l : List α) (f : α → ℚ) (g : ℚ) :
    (l.map fun a => f a / g).sum = (l.map f).sum / g := by
  simp only [div_eq_mul_inv]
  exact List.sum_map_mul_right l f g⁻¹

/-- Weights divided by their gross have gross one. -/
lemma grossOf_scaled {weights : Series String} (h : weights.Finite) {g : ℚ} (hg : 0 < g)
    (hgross : grossOf weights = .fin g) :
    grossOf (Series.map (fun w => w / .fin g) weights) = 1 := by
  have hfinite : (Series.map (fun w => w / .fin g) weights).Finite := by
    refine h.map fun q => ?_
    rw [PyFloat.div_fin _ hg.ne']
    rfl
  have hsum : (weights.rows.map fun e => |e.2.toRat|).sum = g := by
    rw [grossOf_fin h] at hgross
    exact PyFloat.fin.inj hgross
  have habs : ((Series.map (fun w => w / .fin g) weights).rows.map fun e => |e.2.toRat|) =
      weights.rows.map fun e => |e.2.toRat| / g := by
    rw [Series.rows_map, List.map_map]
    refine List.map_congr_left fun e he => ?_
    show |(e.2 / .fin g).toRat| = |e.2.toRat| / g
    rw [h.value he, PyFloat.div_fin _ hg.ne', PyFloat.toRat_fin, PyFloat.toRat_fin, abs_div,
      abs_of_pos hg]
  rw [grossOf_fin hfinite, habs, sum_map_div, hsum, div_self hg.ne']
  rfl

/-- A book with a name that weighs something has a gross. -/
lemma gross_pos {weights : Series String} (h : Sized num spec latest weights)
    (hne : weights.rows ≠ []) : 0 < (weights.rows.map fun e => |e.2.toRat|).sum := by
  obtain ⟨c, hc, hrows⟩ := h
  obtain ⟨e, he⟩ := List.exists_mem_of_ne_nil _ hne
  obtain ⟨q, hq, -, hvalue⟩ := hrows e he
  have hpos : 0 < |e.2.toRat| := by
    rw [hvalue, PyFloat.toRat_fin]
    exact abs_pos.mpr (mul_ne_zero (signedSize_ne_zero num spec hq) hc.ne')
  apply hpos.trans_le
  apply List.single_le_sum
  · intro x hx
    obtain ⟨e', -, rfl⟩ := List.mem_map.mp hx
    exact abs_nonneg _
  · exact List.mem_map_of_mem (f := fun e : String × PyFloat => |e.2.toRat|) he

/-- A balance leaves a book of gross one. -/
lemma grossOf_balanced {weights : Series String} (h : Sized num spec latest weights)
    (htrim : IsTrimmed spec weights) : grossOf (balanceSides spec weights).weights = 1 := by
  have hlengths := length_balanced h.finite htrim
  have hkept := h.filter fun e => e.1 ∉ surplus weights
  -- the longs that are left still weigh something
  have hne : (weights.filter fun e => e.1 ∉ surplus weights).rows ≠ [] := by
    have hlongs : (balanceSides spec weights).longs ≠ [] := by
      have hpos := List.length_pos_of_ne_nil htrim.2.1
      have hpos' := List.length_pos_of_ne_nil htrim.2.2.1
      refine List.ne_nil_of_length_pos ?_
      omega
    obtain ⟨name, hname⟩ := List.exists_mem_of_ne_nil _ hlongs
    unfold balanceSides at hname
    rw [if_pos htrim] at hname
    obtain ⟨hlong, hin⟩ := List.mem_filter.mp hname
    obtain ⟨x, hx, -⟩ := mem_longsOf.mp hlong
    exact List.ne_nil_of_mem (List.mem_filter.mpr ⟨hx, hin⟩)
  have hpos := gross_pos hkept hne
  have hgross := grossOf_fin hkept.finite
  unfold balanceSides
  rw [if_pos htrim]
  dsimp only
  rw [hgross, PyFloat.zero_eq, if_pos ((PyFloat.fin_lt_fin _ _).mpr hpos)]
  exact grossOf_scaled hkept.finite hpos hgross

lemma grossOf_winsorWeights (h : (winsorized num spec latest).Finite) (panel : Panel) :
    grossOf (winsorWeights num spec panel latest) =
      .fin (((passing num spec latest panel).map fun e => |signedSize num spec e.2.toRat|).sum /
        rawGross num spec latest) := by
  have hsum := ((perm_winsorWeights h panel).map fun e => |e.2.toRat|).sum_eq
  have hgross : 0 ≤ rawGross num spec latest :=
    List.sum_nonneg fun x hx => by
      obtain ⟨e, -, rfl⟩ := List.mem_map.mp hx
      exact abs_nonneg _
  rw [grossOf_fin (winsorWeights_sized h panel).finite, hsum, List.map_map, ← sum_map_div]
  refine congrArg PyFloat.fin (congrArg List.sum (List.map_congr_left fun e _ => ?_))
  show |_ / _| = _
  rw [abs_div, abs_of_nonneg hgross]

/-- Where the filter takes a part, it takes a part of the gross. -/
lemma sum_passing_lt (h : (winsorized num spec latest).Finite) {panel : Panel}
    (hout : ∃ e ∈ picked num spec latest, passesFilter spec panel e.1 = false) :
    ((passing num spec latest panel).map fun e => |signedSize num spec e.2.toRat|).sum <
      rawGross num spec latest := by
  obtain ⟨e, he, hfails⟩ := hout
  have hsplit := ((List.filter_append_perm (fun e : String × PyFloat => passesFilter spec panel e.1)
    (picked num spec latest)).map fun e => |signedSize num spec e.2.toRat|).sum_eq
  rw [List.map_append, List.sum_append] at hsplit
  have hpos : 0 < |signedSize num spec e.2.toRat| :=
    abs_pos.mpr (signedSize_ne_zero num spec (mem_picked h he).2.2)
  have hin : e ∈ (picked num spec latest).filter fun e => !passesFilter spec panel e.1 :=
    List.mem_filter.mpr ⟨he, by rw [hfails]; rfl⟩
  have hle : |signedSize num spec e.2.toRat| ≤ (((picked num spec latest).filter fun e =>
      !passesFilter spec panel e.1).map fun e => |signedSize num spec e.2.toRat|).sum := by
    apply List.single_le_sum
    · intro x hx
      obtain ⟨e', -, rfl⟩ := List.mem_map.mp hx
      exact abs_nonneg _
    · exact List.mem_map_of_mem (f := fun e : String × PyFloat => |signedSize num spec e.2.toRat|) hin
  unfold rawGross passing
  linarith

/-! ## The law -/

/-- Everything but the gross holds of every winsorised book. -/
lemma winsorLaw_of_gross (h : (winsorized num spec latest).Finite)
    (hz : (zscored num latest).Finite) (hk : 0 < spec.winsorK) (hp : 0 < spec.powerP)
    (panel : Panel) (scores ranks : Series String)
    (hgross : (balanceSides spec (winsorWeights num spec panel latest)).weights.rows = [] ∨
      grossOf (balanceSides spec (winsorWeights num spec panel latest)).weights = 1) :
    WinsorLaw num spec latest (selectionOf panel scores ranks
      (balanceSides spec (winsorWeights num spec panel latest))) := by
  have hweights := winsorWeights_sized h panel
  have hsized := hweights.balanceSides
  refine ⟨hgross, hsized.sign hk hz, fun e he f hf _ => hsized.monotone hp e he f hf, ?_, ?_⟩
  · intro k htopK
    obtain ⟨hlongs, hshorts⟩ := length_sides_le h panel htopK
    by_cases htrim : IsTrimmed spec (winsorWeights num spec panel latest)
    · obtain ⟨hl, hs⟩ := length_balanced hweights.finite htrim
      show (balanceSides spec _).longs.length ≤ k ∧ (balanceSides spec _).shorts.length ≤ k
      omega
    · unfold balanceSides
      rw [if_neg htrim]
      exact ⟨hlongs, hshorts⟩
  · intro hbalanced hl hs
    by_cases htrim : IsTrimmed spec (winsorWeights num spec panel latest)
    · obtain ⟨hl, hs⟩ := length_balanced hweights.finite htrim
      exact hl.trans hs.symm
    · unfold balanceSides at hl hs ⊢
      rw [if_neg htrim] at hl hs ⊢
      by_contra hne
      exact htrim ⟨hbalanced, hl, hs, hne⟩

/-- For scores that have a standard deviation, a `winsor_cont` selection meets its postcondition exactly
when the filter takes none or all of the picked names or a balance follows. -/
theorem winsorLaw_iff (num : Numerics) {spec : AlphaSpec} (hwinsor : spec.construction = .winsorCont)
    (hk : 0 < spec.winsorK) (hp : 0 < spec.powerP) (panel : Panel) (row : Series String) {σ : ℚ}
    (hσ : num.std row.dropna.values = .fin σ) (h0 : σ ≠ 0) :
    WinsorLaw num spec row.dropna (selectPositions num spec panel (.score row)) ↔
      KeepsGross num spec panel row.dropna := by
  have hz := zscored_finite hσ h0
  have h : (winsorized num spec row.dropna).Finite := winsorized_finite hz
  have hselect : selectPositions num spec panel (.score row) =
      selectionOf panel row.dropna row.dropna.rankPct
        (balanceSides spec (winsorWeights num spec panel row.dropna)) := by
    rw [selectPositions, construct, hwinsor]
  obtain ⟨hlongs, hshorts⟩ := length_sides h panel
  have htrim : IsTrimmed spec (winsorWeights num spec panel row.dropna) ↔
      spec.balanced = true ∧
        0 < (passing num spec row.dropna panel).countP (fun e => 0 < e.2) ∧
        0 < (passing num spec row.dropna panel).countP (fun e => e.2 < 0) ∧
        (passing num spec row.dropna panel).countP (fun e => 0 < e.2) ≠
          (passing num spec row.dropna panel).countP (fun e => e.2 < 0) := by
    rw [IsTrimmed, ← List.length_pos_iff, ← List.length_pos_iff, hlongs, hshorts]
  have hrows := (perm_winsorWeights h panel).length_eq
  rw [List.length_map] at hrows
  rw [hselect]
  constructor
  · intro hlaw
    by_contra hnot
    unfold KeepsGross at hnot
    rw [← htrim] at hnot
    push Not at hnot
    obtain ⟨⟨e, he, hfails⟩, hne, hstays⟩ := hnot
    have hpassing := List.length_pos_of_ne_nil hne
    have hgross := hlaw.gross
    dsimp only [selectionOf] at hgross
    unfold balanceSides at hgross
    rw [if_neg hstays] at hgross
    rcases hgross with hempty | hone
    · rw [hempty, List.length_nil] at hrows
      omega
    · -- what is left is a proper part of a gross of one
      have hlt := sum_passing_lt h ⟨e, he, by simpa using hfails⟩
      have hpos := rawGross_pos h (List.ne_nil_of_mem he)
      rw [grossOf_winsorWeights h panel] at hone
      have hquot := PyFloat.fin.inj hone
      rw [div_eq_iff hpos.ne', one_mul] at hquot
      exact hlt.ne hquot
  · intro hkeeps
    refine winsorLaw_of_gross h hz hk hp panel _ _ ?_
    by_cases htrimmed : IsTrimmed spec (winsorWeights num spec panel row.dropna)
    · exact .inr (grossOf_balanced (winsorWeights_sized h panel) htrimmed)
    · unfold balanceSides
      rw [if_neg htrimmed]
      rcases hkeeps with hall | hnone | hbalance
      · by_cases hpicked : picked num spec row.dropna = []
        · left
          apply List.length_eq_zero_iff.mp
          rw [hrows, passing, hpicked]
          rfl
        · right
          have hpos := rawGross_pos h hpicked
          have hpass : passing num spec row.dropna panel = picked num spec row.dropna :=
            List.filter_eq_self.mpr hall
          rw [grossOf_winsorWeights h panel, hpass]
          show PyFloat.fin (rawGross num spec row.dropna / rawGross num spec row.dropna) = 1
          rw [div_self hpos.ne']
          rfl
      · left
        apply List.length_eq_zero_iff.mp
        rw [hrows, hnone]
        rfl
      · exact absurd (htrim.mpr hbalance) htrimmed

/-- A winsorised alpha on the coins of the largest turnover. -/
def winsorSpec : AlphaSpec :=
  { alphaId := "4h-trend-z", timeframe := "4h", signal := "zscore", universeSize := 1,
    universeMode := .currentTopK, construction := .winsorCont }

/-- Three coins, of which the first turns over the most, and their scores. -/
def unevenCoins : Panel :=
  ⟨[("AUSDT", [(3, 1)]), ("BUSDT", [(2, 1)]), ("CUSDT", [(1, 1)])], by decide⟩

def unevenScores : Series String := ⟨[("AUSDT", 3), ("BUSDT", 2), ("CUSDT", 1)], by decide⟩

/-- Without the filter the same scores give a book of gross one. -/
theorem winsorLaw_unevenScores :
    WinsorLaw rationalNumerics { winsorSpec with universeMode := .fixed } unevenScores.dropna
      (selectPositions rationalNumerics { winsorSpec with universeMode := .fixed } unevenCoins
        (.score unevenScores)) :=
  (winsorLaw_iff rationalNumerics rfl (by decide +kernel) (by decide +kernel) unevenCoins unevenScores
    (σ := 1) (by decide +kernel) one_ne_zero).mpr (by decide +kernel)

/-- The filter takes the short side, and the long one is left with half of the gross. -/
theorem filter_halves_gross :
    rationalNumerics.std unevenScores.dropna.values = .fin 1 ∧
      grossOf (selectPositions rationalNumerics winsorSpec unevenCoins (.score unevenScores)).weights =
        .fin (1 / 2) ∧
      ¬ WinsorLaw rationalNumerics winsorSpec unevenScores.dropna
        (selectPositions rationalNumerics winsorSpec unevenCoins (.score unevenScores)) := by
  have hgross : grossOf (selectPositions rationalNumerics winsorSpec unevenCoins
      (.score unevenScores)).weights = .fin (1 / 2) := by decide +kernel
  refine ⟨by decide +kernel, hgross, fun hlaw => ?_⟩
  rcases hlaw.gross with hempty | hone
  · exact absurd hempty (by decide +kernel)
  · rw [hgross] at hone
    exact absurd hone (by decide +kernel)

end PaperTrade.CrossAlpha
