import PaperTrade.CrossAlpha.Neutral
import PaperTrade.CrossAlpha.WinsorLaw

/-!
# Which names a cut drops

Where one side of a book has more names than the other, `rank` keeps the names that come first in the
alphabet, and `winsor_cont` drops the names of the lowest weight and of equal weights those that come
first in the alphabet. The names that are dropped are the weakest by score only when that order agrees
with the scores at the cut (`keepsStrongest_iff`); the order is one of the inputs, the picks and, for
`winsor_cont`, the sizes of their clipped z-scores.
-/

namespace PaperTrade.CrossAlpha

open PaperTrade.Runtime

section Cut

variable (num : Numerics) (spec : AlphaSpec) (panel : Panel) (latest : Series String)

/-- The score of a name. -/
def scoreOf (name : String) : PyFloat := (latest.get? name).getD .nan

/-- The place of a score in the order of the numbers. -/
def strength (name : String) : WithBot (WithTop ℚ) := (scoreOf latest name).toExtended

/-- The picked names with a positive clipped z-score that pass the filter. -/
def passingLongs : List String :=
  sortedNames (((passing num spec latest panel).filter fun e => 0 < e.2).map Prod.fst)

/-- The picked names with a negative clipped z-score that pass the filter. -/
def passingShorts : List String :=
  sortedNames (((passing num spec latest panel).filter fun e => e.2 < 0).map Prod.fst)

/-- The size of the clipped z-score of a name. -/
def sizeOf (name : String) : ℚ :=
  size num spec |(((winsorized num spec latest).get? name).getD 0).toRat|

/-- The order of the cut agrees with the scores. For `rank` the names of a side that come first in the
alphabet, as many as are kept, have the strongest scores of the side; for `winsor_cont` the names of
the smallest sizes, as many as are dropped, have the weakest ones. -/
def CutAgrees : Prop :=
  match spec.construction with
  | .rank =>
    let picks := rankPicks spec latest
    let longs := candidates spec panel picks.1 picks.2
    let shorts := candidates spec panel picks.2 picks.1
    let k := min longs.length shorts.length
    StartsWithLeast (fun n => OrderDual.toDual (strength latest n)) k longs ∧
      StartsWithLeast (strength latest) k shorts
  | .winsorCont =>
    let longs := passingLongs num spec panel latest
    let shorts := passingShorts num spec panel latest
    spec.balanced = true → longs ≠ [] → shorts ≠ [] →
      StartsWithLeast (strength latest) (longs.length - shorts.length)
          (sortedBy (sizeOf num spec latest) longs) ∧
        StartsWithLeast (fun n => OrderDual.toDual (strength latest n)) (shorts.length - longs.length)
          (sortedBy (sizeOf num spec latest) shorts)

instance : Decidable (CutAgrees num spec panel latest) := by
  unfold CutAgrees
  split <;> infer_instance

end Cut

variable {num : Numerics} {spec : AlphaSpec} {latest : Series String}

/-! ## Cutting a list -/

section Lists

variable {κ : Type} [LinearOrder κ] {key : String → κ}

end Lists

/-! ## Scores -/

/-- No entry is positive or negative. -/
def Flat (s : Series String) : Prop := ∀ e ∈ s.rows, e.2 = .nan ∨ e.2 = 0

lemma flat_div {x : PyFloat} (h : x = .nan ∨ x = 0) (g : PyFloat) : x / g = .nan ∨ x / g = 0 := by
  rcases h with rfl | rfl
  · exact .inl rfl
  · show PyFloat.div (.fin 0) g = .nan ∨ PyFloat.div (.fin 0) g = .fin 0
    unfold PyFloat.div
    cases g with
    | nan => exact .inl rfl
    | inf s => exact .inr rfl
    | fin q =>
      by_cases hq : q = 0
      · exact .inl (if_pos hq)
      · right
        dsimp only
        rw [if_neg hq, zero_div]

lemma Flat.not_pos {s : Series String} (h : Flat s) {e : String × PyFloat} (he : e ∈ s.rows) :
    ¬ 0 < e.2 := by
  rcases h e he with h | h
  · rw [h]
    exact PyFloat.not_lt_nan 0
  · rw [h, PyFloat.zero_eq, PyFloat.fin_lt_fin]
    exact lt_irrefl 0

lemma Flat.not_neg {s : Series String} (h : Flat s) {e : String × PyFloat} (he : e ∈ s.rows) :
    ¬ e.2 < 0 := by
  rcases h e he with h | h
  · rw [h]
    exact PyFloat.not_nan_lt 0
  · rw [h, PyFloat.zero_eq, PyFloat.fin_lt_fin]
    exact lt_irrefl 0

lemma Flat.winsorized (h : Flat (zscored num latest)) : Flat (winsorized num spec latest) := by
  intro e he
  obtain ⟨x, hx, hclip⟩ := Series.mem_map.mp he
  rw [hclip]
  rcases h _ hx with hx | hx
  · left
    rw [show x = .nan from hx]
    unfold PyFloat.clip
    rw [if_neg (PyFloat.not_nan_lt _), if_neg (PyFloat.not_lt_nan _)]
  · right
    have hlo : min (-spec.winsorK) spec.winsorK ≤ 0 := by
      rcases le_total spec.winsorK 0 with hk | hk
      · exact (min_le_right _ _).trans hk
      · exact (min_le_left _ _).trans (neg_nonpos.mpr hk)
    have hhi : 0 ≤ max (-spec.winsorK) spec.winsorK := by
      rcases le_total spec.winsorK 0 with hk | hk
      · exact (neg_nonneg.mpr hk).trans (le_max_left _ _)
      · exact hk.trans (le_max_right _ _)
    rw [show x = 0 from hx, PyFloat.zero_eq, PyFloat.clip_fin min_le_max, min_eq_right hhi,
      max_eq_right hlo]

lemma Flat.raw (h : Flat (CrossAlpha.winsorized num spec latest)) : Flat (raw num spec latest) := by
  unfold CrossAlpha.raw
  cases hk : spec.topK with
  | none => exact h
  | some k =>
    have hlong : (longPool num spec k latest).rows = [] :=
      List.eq_nil_iff_forall_not_mem.mpr fun e he =>
        h.not_pos (mem_longPool he).1 (mem_longPool he).2
    have hshort : (shortPool num spec k latest).rows = [] :=
      List.eq_nil_iff_forall_not_mem.mpr fun e he =>
        h.not_neg (mem_shortPool he).1 (mem_shortPool he).2
    intro e he
    obtain ⟨name, hname, -⟩ := List.mem_map.mp he
    rw [List.mem_insertionSort, List.mem_append, List.mem_filter] at hname
    have hno : ∀ pool : Series String, pool.rows = [] → name ∉ (powered num spec pool).keys := by
      intro pool hpool hmem
      rw [Dict.keys, powered, Series.rows_map, hpool] at hmem
      cases hmem
    rcases hname with hmem | ⟨hmem, -⟩
    · exact absurd hmem (hno _ hlong)
    · exact absurd hmem (hno _ hshort)

lemma Flat.winsorWeights (h : Flat (CrossAlpha.winsorized num spec latest)) (panel : Panel) :
    Flat (winsorWeights num spec panel latest) := by
  have hraw := h.raw
  intro e he
  have hscaled := (Series.mem_keep.mp (List.mem_filter.mp he).1).1
  unfold scaled at hscaled
  dsimp only at hscaled
  split at hscaled
  · obtain ⟨x, hx, hvalue⟩ := Series.mem_map.mp hscaled
    rw [hvalue]
    exact flat_div (hraw _ hx) _
  · exact hraw e hscaled

lemma Flat.sides {weights : Series String} (h : Flat weights) :
    longsOf weights = [] ∧ shortsOf weights = [] := by
  constructor
  · refine List.eq_nil_iff_forall_not_mem.mpr fun name hmem => ?_
    obtain ⟨x, hx, hpos⟩ := mem_longsOf.mp hmem
    exact h.not_pos hx hpos
  · refine List.eq_nil_iff_forall_not_mem.mpr fun name hmem => ?_
    obtain ⟨x, hx, hneg⟩ := mem_shortsOf.mp hmem
    exact h.not_neg hx hneg

lemma Flat.passingLongs (h : Flat (CrossAlpha.winsorized num spec latest)) (panel : Panel) :
    passingLongs num spec panel latest = [] := by
  have hnone : ((passing num spec latest panel).filter fun e => 0 < e.2) = [] := by
    refine List.filter_eq_nil_iff.mpr fun e he hpos => ?_
    have hpicked := (List.mem_filter.mp he).1
    unfold picked at hpicked
    cases hk : spec.topK with
    | none =>
      rw [hk] at hpicked
      exact h.not_pos (Series.mem_keep.mp hpicked).1 (of_decide_eq_true hpos)
    | some k =>
      rw [hk] at hpicked
      rcases List.mem_append.mp hpicked with hmem | hmem
      · exact h.not_pos (mem_longPool hmem).1 (of_decide_eq_true hpos)
      · exact h.not_pos (mem_shortPool hmem).1 (of_decide_eq_true hpos)
  rw [CrossAlpha.passingLongs, hnone]
  rfl

/-! ## The cut -/

section Sides

variable {row : Series String} {side : List String}

end Sides

variable (latest) in
/-- The picks of `rank` are as many for both sides, so that without the filter nothing is cut. -/
lemma length_candidates (hmode : spec.universeMode ≠ .currentTopK) (panel : Panel) :
    (candidates spec panel (rankPicks spec latest).1 (rankPicks spec latest).2).length =
      (candidates spec panel (rankPicks spec latest).2 (rankPicks spec latest).1).length := by
  have hall : ∀ l : List String, l.filter (passesFilter spec panel) = l := by
    intro l
    refine List.filter_eq_self.mpr fun n _ => ?_
    rw [passesFilter, decide_eq_true_eq]
    exact .inl hmode
  have hlengths : (rankPicks spec latest).1.length = (rankPicks spec latest).2.length := by
    rw [rankPicks, Dict.keys, Dict.keys, List.length_map, List.length_map, Series.nlargest,
      Series.nsmallest, Series.length_firstBy, Series.length_firstBy]
  have hnodup : (rankPicks spec latest).1.Nodup ∧ (rankPicks spec latest).2.Nodup :=
    ⟨Dict.nodup_keys _, Dict.nodup_keys _⟩
  generalize (rankPicks spec latest).1 = longs at hlengths hnodup ⊢
  generalize (rankPicks spec latest).2 = shorts at hlengths hnodup ⊢
  have hsame : (longs.filter (· ∈ shorts)).Perm (shorts.filter (· ∈ longs)) := by
    refine (List.perm_ext_iff_of_nodup (hnodup.1.filter _) (hnodup.2.filter _)).mpr fun a => ?_
    rw [List.mem_filter, List.mem_filter, decide_eq_true_eq, decide_eq_true_eq, and_comm]
  have hl := List.length_eq_length_filter_add (l := longs) fun a => decide (a ∈ shorts)
  have hs := List.length_eq_length_filter_add (l := shorts) fun a => decide (a ∈ longs)
  have hnot : ∀ l m : List String, (l.filter fun a => !decide (a ∈ m)) = l.filter (· ∉ m) :=
    fun l m => List.filter_congr fun a _ => by simp
  rw [hnot] at hl hs
  rw [candidates, candidates, hall, hall, sortedNames, sortedNames,
    (List.perm_insertionSort _ _).length_eq, (List.perm_insertionSort _ _).length_eq]
  have hcommon := hsame.length_eq
  omega

/-- A `rank` book that is not filtered keeps every pick, so the order of the cut does not matter. -/
theorem cutAgrees_of_unfiltered (num : Numerics) (hrank : spec.construction = .rank)
    (hmode : spec.universeMode ≠ .currentTopK) (panel : Panel) (latest : Series String) :
    CutAgrees num spec panel latest := by
  have hlengths := length_candidates latest hmode panel
  have hwhole : ∀ {κ : Type} [LinearOrder κ] (key : String → κ) (l : List String),
      StartsWithLeast key l.length l := by
    intro κ _ key l
    refine (startsWithLeast_iff _ _).mpr fun a _ b hb => ?_
    rw [List.drop_length] at hb
    cases hb
  unfold CutAgrees
  rw [hrank]
  dsimp only
  rw [← hlengths, Nat.min_self]
  exact ⟨hwhole _ _, hlengths ▸ hwhole _ _⟩

end PaperTrade.CrossAlpha
