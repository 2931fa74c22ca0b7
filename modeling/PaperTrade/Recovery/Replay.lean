import PaperTrade.Runner.CrossSectional
import PaperTrade.Runtime.StableSort

/-!
# The weights of the recovery

`_tradable_balanced_weights` mirrors what a rebalance of the runner does with a selection: only names
with a price are opened, and the larger side is trimmed to the smaller one, the weakest first. The
runner puts the names in alphabetical order before it sorts them by weight and the recovery does not,
so the two part company when the cut splits a tie; and a price of NaN is one for the runner only.
`TrimsAlike` says when neither happens (`tradableBalancedWeights_eq_iff`).
-/

namespace PaperTrade.Recovery

open PaperTrade.Runtime PaperTrade.CrossAlpha
open PaperTrade.Runner.CrossSectional (weakest balance tradableWeights)

variable (selection : Selection) (prices : Dict String PyFloat)

/-- `_tradable_balanced_weights`: the names with a price. -/
def pricedWeights : List (String × PyFloat) :=
  selection.weights.rows.filter fun e => 0 < (prices.get? e.1).getD 0

/-- `_tradable_balanced_weights`. -/
def tradableBalancedWeights : List (String × PyFloat) :=
  let weights := pricedWeights selection prices
  let weightOf := fun symbol => ((weights.find? fun e => e.1 = symbol).map fun e => e.2).getD 0
  let longs := (weights.filter fun e => 0 < e.2).map fun e => e.1
  let shorts := (weights.filter fun e => e.2 < 0).map fun e => e.1
  let target := min longs.length shorts.length
  if target = 0 then weights
  else
    let dropLongs := weakest weightOf (longs.length - target) longs
    let dropShorts := weakest (fun symbol => (weightOf symbol).abs) (shorts.length - target) shorts
    weights.filter fun e => e.1 ∉ dropLongs ++ dropShorts

/-! ## The trim -/

/-- The names on the long side. -/
def longNames (weights : List (String × PyFloat)) : List String :=
  (weights.filter fun e => 0 < e.2).map fun e => e.1

/-- The names on the short side. -/
def shortNames (weights : List (String × PyFloat)) : List String :=
  (weights.filter fun e => e.2 < 0).map fun e => e.1

/-- How many names a side has too many; none when the other side is empty. -/
def excess (side other : List String) : ℕ :=
  if other.length = 0 then 0 else side.length - other.length

/-- What a trim goes by: the size of the selected weight. -/
def strength (symbol : String) : WithBot (WithTop ℚ) :=
  ((selection.weights.get? symbol).getD 0).abs.toExtended

/-- The first `n` names of one side when it is sorted by strength, ties in the order of the list. -/
def weakestNames (n : ℕ) (names : List String) : List String :=
  (sortedBy (strength selection) names).take n

/-- Fewer than `n` names of the side come before this one, by strength and then by name. -/
def AmongWeakest (n : ℕ) (names : List String) (symbol : String) : Prop :=
  symbol ∈ names ∧ (names.filter fun other => strength selection other < strength selection symbol ∨
    strength selection other = strength selection symbol ∧ other < symbol).length < n

/-- Each name with a price of NaN is among those that the runner drops anyway. -/
def UnpricedTrimmed : Prop :=
  ∀ e ∈ tradableWeights selection prices none, prices.get? e.1 = some .nan →
    AmongWeakest selection
        (excess (longNames (tradableWeights selection prices none))
          (shortNames (tradableWeights selection prices none)))
        (longNames (tradableWeights selection prices none)) e.1 ∨
      AmongWeakest selection
        (excess (shortNames (tradableWeights selection prices none))
          (longNames (tradableWeights selection prices none)))
        (shortNames (tradableWeights selection prices none)) e.1

/-- When both trims leave the same: no name with a price of NaN is left, and where the cut goes through
a tie of the others, the names that the selection lists first are the alphabetically first. -/
structure TrimsAlike : Prop where
  unpriced : UnpricedTrimmed selection prices
  longs : SplitsInOrder (strength selection)
    (excess (longNames (pricedWeights selection prices)) (shortNames (pricedWeights selection prices)))
    (longNames (pricedWeights selection prices))
  shorts : SplitsInOrder (strength selection)
    (excess (shortNames (pricedWeights selection prices)) (longNames (pricedWeights selection prices)))
    (shortNames (pricedWeights selection prices))

variable {selection} {prices}

/-! ## Both trims as one -/

section Part

variable {weights : List (String × PyFloat)}

/-- The weight of a name. -/
def weightIn (weights : List (String × PyFloat)) (symbol : String) : PyFloat :=
  ((weights.find? fun e => e.1 = symbol).map fun e => e.2).getD 0

lemma weightIn_of_mem (hw : weights.Sublist selection.weights.rows) {e : String × PyFloat}
    (he : e ∈ weights) : weightIn weights e.1 = e.2 := by
  have hnodup : (weights.map Prod.fst).Nodup :=
    selection.weights.nodup_keys.sublist (hw.map Prod.fst)
  have hfind := (Table.find?_some_iff ⟨weights, hnodup⟩ e.1 e).mpr ⟨he, rfl⟩
  unfold Table.find? at hfind
  rw [weightIn, hfind]
  rfl

lemma get?_of_mem (hw : weights.Sublist selection.weights.rows) {e : String × PyFloat}
    (he : e ∈ weights) : selection.weights.get? e.1 = some e.2 :=
  (Dict.get?_some_iff _ _ _).mpr (hw.subset he)

lemma nodup_longNames (hw : weights.Sublist selection.weights.rows) : (longNames weights).Nodup :=
  selection.weights.nodup_keys.sublist ((List.filter_sublist.trans hw).map Prod.fst)

lemma nodup_shortNames (hw : weights.Sublist selection.weights.rows) : (shortNames weights).Nodup :=
  selection.weights.nodup_keys.sublist ((List.filter_sublist.trans hw).map Prod.fst)

lemma ne_nan_of_pos {w : PyFloat} (h : 0 < w) : w ≠ .nan := by
  rintro rfl
  exact PyFloat.not_lt_nan _ h

lemma ne_nan_of_neg {w : PyFloat} (h : w < 0) : w ≠ .nan := by
  rintro rfl
  exact PyFloat.not_nan_lt _ h

lemma not_lt_of_pos {w : PyFloat} (h : 0 < w) : ¬ w < 0 := by
  have hw := ne_nan_of_pos h
  have hzero : (0 : PyFloat) ≠ .nan := fun h => PyFloat.noConfusion h
  rw [PyFloat.toExtended_lt hw hzero]
  exact ((PyFloat.toExtended_lt hzero hw).mp h).not_gt

lemma abs_ne_nan {w : PyFloat} (h : w ≠ .nan) : w.abs ≠ .nan := by
  cases w with
  | nan => exact absurd rfl h
  | inf s => exact fun h => PyFloat.noConfusion h
  | fin q => exact fun h => PyFloat.noConfusion h

lemma abs_of_long {w : PyFloat} (h : 0 < w) : w.abs = w := by
  cases w with
  | nan => exact absurd h (PyFloat.not_lt_nan _)
  | inf s =>
    cases s with
    | false => rfl
    | true => exact Bool.noConfusion h
  | fin q => exact congrArg PyFloat.fin (abs_of_pos (of_decide_eq_true h))

/-- On names with a weight the sizes sort as the strengths do. -/
lemma weakest_eq {key : String → PyFloat} {names : List String} (n : ℕ)
    (h : ∀ s ∈ names, key s ≠ .nan ∧ (key s).toExtended = strength selection s) :
    weakest key n names = weakestNames selection n names := by
  have hagree : ∀ a ∈ names, ∀ b ∈ names,
      ¬ key b < key a ↔ strength selection a ≤ strength selection b := by
    intro a ha b hb
    rw [PyFloat.toExtended_lt (h b hb).1 (h a ha).1, (h a ha).2, (h b hb).2, not_lt]
  rw [weakest, insertionSort_eq_sortedBy hagree, weakestNames]

lemma weakest_longs (hw : weights.Sublist selection.weights.rows) (n : ℕ) {names : List String}
    (h : ∀ s ∈ names, s ∈ longNames weights) :
    weakest (weightIn weights) n names = weakestNames selection n names := by
  apply weakest_eq
  intro s hs
  obtain ⟨e, he, rfl⟩ := List.mem_map.mp (h s hs)
  obtain ⟨he, hpos⟩ := List.mem_filter.mp he
  have hpos : 0 < e.2 := of_decide_eq_true hpos
  rw [weightIn_of_mem hw he, strength, get?_of_mem hw he, Option.getD_some, abs_of_long hpos]
  exact ⟨ne_nan_of_pos hpos, rfl⟩

lemma weakest_shorts (hw : weights.Sublist selection.weights.rows) (n : ℕ) {names : List String}
    (h : ∀ s ∈ names, s ∈ shortNames weights) :
    weakest (fun symbol => (weightIn weights symbol).abs) n names = weakestNames selection n names := by
  apply weakest_eq
  intro s hs
  obtain ⟨e, he, rfl⟩ := List.mem_map.mp (h s hs)
  obtain ⟨he, hneg⟩ := List.mem_filter.mp he
  have hneg : e.2 < 0 := of_decide_eq_true hneg
  rw [weightIn_of_mem hw he, strength, get?_of_mem hw he, Option.getD_some]
  exact ⟨abs_ne_nan (ne_nan_of_neg hneg), rfl⟩

/-- A trim: the names of each side that are dropped, when the sides are sorted by `order` first. -/
def trimmed (selection : Selection) (order : List String → List String)
    (weights : List (String × PyFloat)) : List (String × PyFloat) :=
  weights.filter fun e =>
    e.1 ∉ weakestNames selection (excess (longNames weights) (shortNames weights))
        (order (longNames weights)) ∧
    e.1 ∉ weakestNames selection (excess (shortNames weights) (longNames weights))
        (order (shortNames weights))

lemma excess_eq_zero {side other : List String}
    (h : other.length = 0 ∨ side.length ≤ other.length) : excess side other = 0 := by
  unfold excess
  split <;> omega

lemma excess_of_pos {side other : List String} (h : 0 < other.length) :
    excess side other = side.length - other.length := if_neg (by omega)

lemma weakestNames_zero (names : List String) : weakestNames selection 0 names = [] := rfl

/-- The runner trims the names in alphabetical order. -/
theorem balance_eq (hw : weights.Sublist selection.weights.rows) :
    balance weights = trimmed selection (·.insertionSort (· ≤ ·)) weights := by
  have hlongs := List.length_insertionSort (· ≤ ·) (longNames weights)
  have hshorts := List.length_insertionSort (· ≤ ·) (shortNames weights)
  have hlongNames : ∀ n, weakest (weightIn weights) n ((longNames weights).insertionSort (· ≤ ·)) =
      weakestNames selection n ((longNames weights).insertionSort (· ≤ ·)) :=
    fun n => weakest_longs hw n fun s hs => (List.mem_insertionSort _).mp hs
  have hshortNames : ∀ n, weakest (fun symbol => (weightIn weights symbol).abs) n
        ((shortNames weights).insertionSort (· ≤ ·)) =
      weakestNames selection n ((shortNames weights).insertionSort (· ≤ ·)) :=
    fun n => weakest_shorts hw n fun s hs => (List.mem_insertionSort _).mp hs
  have hbalance : balance weights =
      if (longNames weights).insertionSort (· ≤ ·) ≠ [] ∧
          (shortNames weights).insertionSort (· ≤ ·) ≠ [] ∧
          ((longNames weights).insertionSort (· ≤ ·)).length ≠
            ((shortNames weights).insertionSort (· ≤ ·)).length then
        weights.filter fun e => e.1 ∉
          if min ((longNames weights).insertionSort (· ≤ ·)).length
              ((shortNames weights).insertionSort (· ≤ ·)).length <
              ((longNames weights).insertionSort (· ≤ ·)).length then
            weakest (weightIn weights) (((longNames weights).insertionSort (· ≤ ·)).length -
              min ((longNames weights).insertionSort (· ≤ ·)).length
                ((shortNames weights).insertionSort (· ≤ ·)).length)
              ((longNames weights).insertionSort (· ≤ ·))
          else weakest (fun symbol => (weightIn weights symbol).abs)
            (((shortNames weights).insertionSort (· ≤ ·)).length -
              min ((longNames weights).insertionSort (· ≤ ·)).length
                ((shortNames weights).insertionSort (· ≤ ·)).length)
            ((shortNames weights).insertionSort (· ≤ ·))
      else weights := rfl
  rw [hbalance]
  simp only [← List.length_pos_iff, hlongs, hshorts, hlongNames, hshortNames, trimmed]
  split
  · rename_i h
    split
    · rename_i hlt
      have hlong : (longNames weights).length -
          min (longNames weights).length (shortNames weights).length =
          excess (longNames weights) (shortNames weights) := by
        rw [excess_of_pos h.2.1]
        omega
      have hshort : excess (shortNames weights) (longNames weights) = 0 :=
        excess_eq_zero (.inr (by omega))
      simp [hlong, hshort, weakestNames_zero]
    · rename_i hlt
      have hlong : excess (longNames weights) (shortNames weights) = 0 :=
        excess_eq_zero (.inr (by omega))
      have hshort : (shortNames weights).length -
          min (longNames weights).length (shortNames weights).length =
          excess (shortNames weights) (longNames weights) := by
        rw [excess_of_pos h.1]
        omega
      simp [hlong, hshort, weakestNames_zero]
  · rename_i h
    have hlong : excess (longNames weights) (shortNames weights) = 0 :=
      excess_eq_zero (by omega)
    have hshort : excess (shortNames weights) (longNames weights) = 0 :=
      excess_eq_zero (by omega)
    simp [hlong, hshort, weakestNames_zero]

/-- The recovery trims them in the order of the selection. -/
theorem tradableBalancedWeights_eq :
    tradableBalancedWeights selection prices =
      trimmed selection id (pricedWeights selection prices) := by
  have hw : (pricedWeights selection prices).Sublist selection.weights.rows := List.filter_sublist
  have hlongNames := fun n => weakest_longs hw n fun s (hs : s ∈ longNames _) => hs
  have hshortNames := fun n => weakest_shorts hw n fun s (hs : s ∈ shortNames _) => hs
  unfold tradableBalancedWeights trimmed
  generalize pricedWeights selection prices = weights at hlongNames hshortNames
  have hunfold : (if min (longNames weights).length (shortNames weights).length = 0 then weights
      else weights.filter fun e => e.1 ∉
        weakest (weightIn weights) ((longNames weights).length -
          min (longNames weights).length (shortNames weights).length) (longNames weights) ++
        weakest (fun symbol => (weightIn weights symbol).abs) ((shortNames weights).length -
          min (longNames weights).length (shortNames weights).length) (shortNames weights)) =
      weights.filter fun e =>
        e.1 ∉ weakestNames selection (excess (longNames weights) (shortNames weights))
            (longNames weights) ∧
        e.1 ∉ weakestNames selection (excess (shortNames weights) (longNames weights))
            (shortNames weights) := by
    rw [hlongNames, hshortNames]
    split
    · rename_i h
      have hlong : excess (longNames weights) (shortNames weights) = 0 :=
        excess_eq_zero (by omega)
      have hshort : excess (shortNames weights) (longNames weights) = 0 :=
        excess_eq_zero (by omega)
      simp [hlong, hshort, weakestNames_zero]
    · rename_i h
      have hlong : (longNames weights).length -
          min (longNames weights).length (shortNames weights).length =
          excess (longNames weights) (shortNames weights) := by
        rw [excess_of_pos (by omega)]
        omega
      have hshort : (shortNames weights).length -
          min (longNames weights).length (shortNames weights).length =
          excess (shortNames weights) (longNames weights) := by
        rw [excess_of_pos (by omega)]
        omega
      simp [hlong, hshort, not_or]
  exact hunfold

end Part

/-! ## When they agree -/

/-- Two parts of a list, one of them taken in two steps. -/
lemma filter_filter_eq_iff {α : Type} {l : List α} {p q r : α → Bool} :
    (l.filter p).filter q = l.filter r ↔ ∀ a ∈ l, (p a = true ∧ q a = true) ↔ r a = true := by
  constructor
  · intro h a ha
    have hmem : a ∈ (l.filter p).filter q ↔ a ∈ l.filter r := by rw [h]
    simpa [List.mem_filter, ha, and_comm] using hmem
  · intro h
    rw [List.filter_filter]
    apply List.filter_congr
    intro a ha
    have hiff := h a ha
    rw [Bool.eq_iff_iff, Bool.and_eq_true, ← hiff, and_comm]

/-- The runner opens a name whose price is positive, or NaN. -/
lemma pricedWeights_eq :
    pricedWeights selection prices = (tradableWeights selection prices none).filter fun e =>
      prices.get? e.1 ≠ some .nan := by
  unfold pricedWeights tradableWeights
  rw [List.filter_filter]
  apply List.filter_congr
  intro e _
  cases hprice : prices.get? e.1 with
  | none => rfl
  | some price =>
    cases price with
    | nan => rfl
    | inf s => cases s <;> rfl
    | fin q =>
      simp only [Option.getD_some, PyFloat.truthy_fin]
      rcases lt_trichotomy q 0 with h | rfl | h
      · simp [h.not_gt, h.le]
      · simp
      · simp [h, h.ne', h.not_ge]

lemma filter_pricedWeights_eq_iff {f g : String × PyFloat → Bool} :
    (pricedWeights selection prices).filter f = (tradableWeights selection prices none).filter g ↔
      ∀ e ∈ tradableWeights selection prices none,
        (prices.get? e.1 ≠ some .nan ∧ f e = true) ↔ g e = true := by
  rw [pricedWeights_eq, filter_filter_eq_iff]
  simp only [decide_eq_true_eq]

lemma longNames_filter (q : String → Bool) (weights : List (String × PyFloat)) :
    longNames (weights.filter fun e => q e.1) = (longNames weights).filter q := by
  rw [longNames, longNames, List.filter_map, List.filter_filter, List.filter_filter]
  congr 1
  apply List.filter_congr
  intro e _
  rw [Bool.and_comm]
  rfl

lemma shortNames_filter (q : String → Bool) (weights : List (String × PyFloat)) :
    shortNames (weights.filter fun e => q e.1) = (shortNames weights).filter q := by
  rw [shortNames, shortNames, List.filter_map, List.filter_filter, List.filter_filter]
  congr 1
  apply List.filter_congr
  intro e _
  rw [Bool.and_comm]
  rfl

/-- A side that drops what has no number as its price drops as many fewer of the others. -/
lemma excess_filter {side other : List String} {q : String → Bool}
    (hside : (side.filter fun s => !q s).length ≤ excess side other)
    (hother : (other.filter fun s => !q s).length ≤ excess other side) :
    excess (side.filter q) (other.filter q) =
      excess side other - (side.filter fun s => !q s).length := by
  have hs := List.length_eq_length_filter_add (l := side) q
  have ho := List.length_eq_length_filter_add (l := other) q
  unfold excess at *
  split at hside <;> split at hother <;> split <;> omega

lemma mem_weakestNames_sorted {names : List String} (hnames : names.Nodup) {n : ℕ} {symbol : String} :
    symbol ∈ weakestNames selection n (names.insertionSort (· ≤ ·)) ↔
      AmongWeakest selection n names symbol := by
  by_cases hmem : symbol ∈ names
  · rw [AmongWeakest, and_iff_right hmem]
    exact mem_take_sortedBy_insertionSort hnames hmem
  · constructor
    · intro h
      have hin := mem_sortedBy.mp (List.mem_of_mem_take h)
      exact absurd ((List.mem_insertionSort _).mp hin) hmem
    · intro h
      exact absurd h.1 hmem

lemma mem_of_mem_weakestNames {names : List String} {n : ℕ} {symbol : String}
    (h : symbol ∈ weakestNames selection n names) : symbol ∈ names :=
  mem_sortedBy.mp (List.mem_of_mem_take h)

/-- One side, of which the runner drops all that has no number as its price. -/
lemma side_iff {side other : List String} (hside : side.Nodup) {q : String → Bool}
    (hout : ∀ s ∈ side, q s = false →
      s ∈ weakestNames selection (excess side other) (side.insertionSort (· ≤ ·)))
    (hexcess : excess (side.filter q) (other.filter q) =
      excess side other - (side.filter fun s => !q s).length) :
    (∀ s ∈ side.filter q,
      s ∈ weakestNames selection (excess side other) (side.insertionSort (· ≤ ·)) ↔
        s ∈ weakestNames selection (excess (side.filter q) (other.filter q)) (side.filter q)) ↔
      SplitsInOrder (strength selection) (excess (side.filter q) (other.filter q))
        (side.filter q) := by
  have hle : excess side other ≤ side.length := by
    unfold excess
    split <;> omega
  obtain ⟨-, hfirst⟩ := filter_take_sortedBy hside hle hout
  rw [← mem_take_iff_splitsInOrder (hside.filter q), hexcess, ← hfirst]
  apply forall₂_congr
  intro s hs
  have hq : q s = true := (List.mem_filter.mp hs).2
  rw [List.mem_filter, and_iff_left hq]
  rfl

variable (selection) in
/-- Both sides. -/
lemma sides_iff {names longs shorts : List String} (hlongs : longs ⊆ names) (hshorts : shorts ⊆ names)
    (hlong : longs.Nodup) (hshort : shorts.Nodup) (hdisjoint : ∀ s ∈ longs, s ∉ shorts)
    {q : String → Bool} (hout : ∀ s ∈ names, q s = false →
      AmongWeakest selection (excess longs shorts) longs s ∨
        AmongWeakest selection (excess shorts longs) shorts s) :
    (∀ s ∈ names, q s = true →
      ((s ∉ weakestNames selection (excess (longs.filter q) (shorts.filter q)) (longs.filter q) ∧
        s ∉ weakestNames selection (excess (shorts.filter q) (longs.filter q)) (shorts.filter q)) ↔
      (s ∉ weakestNames selection (excess longs shorts) (longs.insertionSort (· ≤ ·)) ∧
        s ∉ weakestNames selection (excess shorts longs) (shorts.insertionSort (· ≤ ·))))) ↔
      SplitsInOrder (strength selection) (excess (longs.filter q) (shorts.filter q))
        (longs.filter q) ∧
      SplitsInOrder (strength selection) (excess (shorts.filter q) (longs.filter q))
        (shorts.filter q) := by
  have houtLong : ∀ s ∈ longs, q s = false →
      s ∈ weakestNames selection (excess longs shorts) (longs.insertionSort (· ≤ ·)) := by
    intro s hs hq
    apply (mem_weakestNames_sorted hlong).mpr
    exact (hout s (hlongs hs) hq).resolve_right fun h => hdisjoint s hs h.1
  have houtShort : ∀ s ∈ shorts, q s = false →
      s ∈ weakestNames selection (excess shorts longs) (shorts.insertionSort (· ≤ ·)) := by
    intro s hs hq
    apply (mem_weakestNames_sorted hshort).mpr
    exact (hout s (hshorts hs) hq).resolve_left fun h => hdisjoint s h.1 hs
  have hle : ∀ side other : List String, excess side other ≤ side.length := by
    intro side other
    unfold excess
    split <;> omega
  have hfewLong := (filter_take_sortedBy hlong (hle _ _) houtLong).1
  have hfewShort := (filter_take_sortedBy hshort (hle _ _) houtShort).1
  rw [← side_iff hlong houtLong (excess_filter hfewLong hfewShort),
    ← side_iff hshort houtShort (excess_filter hfewShort hfewLong)]
  -- a name of one side is in no list of the other
  have hnotShort : ∀ s ∈ longs, ∀ n, s ∉ weakestNames selection n (shorts.filter q) ∧
      s ∉ weakestNames selection n (shorts.insertionSort (· ≤ ·)) := by
    intro s hs n
    refine ⟨fun h => ?_, fun h => ?_⟩
    · exact hdisjoint s hs (List.mem_filter.mp (mem_of_mem_weakestNames h)).1
    · exact hdisjoint s hs ((mem_weakestNames_sorted hshort).mp h).1
  have hnotLong : ∀ s ∈ shorts, ∀ n, s ∉ weakestNames selection n (longs.filter q) ∧
      s ∉ weakestNames selection n (longs.insertionSort (· ≤ ·)) := by
    intro s hs n
    refine ⟨fun h => ?_, fun h => ?_⟩
    · exact hdisjoint s (List.mem_filter.mp (mem_of_mem_weakestNames h)).1 hs
    · exact hdisjoint s ((mem_weakestNames_sorted hlong).mp h).1 hs
  constructor
  · intro h
    refine ⟨fun s hs => ?_, fun s hs => ?_⟩
    · obtain ⟨hs, hq⟩ := List.mem_filter.mp hs
      have hiff := h s (hlongs hs) hq
      rw [and_iff_left (hnotShort s hs _).1, and_iff_left (hnotShort s hs _).2] at hiff
      exact (not_iff_not.mp hiff).symm
    · obtain ⟨hs, hq⟩ := List.mem_filter.mp hs
      have hiff := h s (hshorts hs) hq
      rw [and_iff_right (hnotLong s hs _).1, and_iff_right (hnotLong s hs _).2] at hiff
      exact (not_iff_not.mp hiff).symm
  · rintro ⟨hL, hS⟩ s - hq
    by_cases hs : s ∈ longs
    · rw [and_iff_left (hnotShort s hs _).1, and_iff_left (hnotShort s hs _).2]
      exact not_congr (hL s (List.mem_filter.mpr ⟨hs, hq⟩)).symm
    by_cases hs' : s ∈ shorts
    · rw [and_iff_right (hnotLong s hs' _).1, and_iff_right (hnotLong s hs' _).2]
      exact not_congr (hS s (List.mem_filter.mpr ⟨hs', hq⟩)).symm
    · have hnone : ∀ n, ∀ names : List String, s ∉ names → s ∉ weakestNames selection n names :=
        fun n names hnot h => hnot (mem_of_mem_weakestNames h)
      have hmem : ∀ names : List String, s ∉ names → s ∉ names.insertionSort (· ≤ ·) :=
        fun names hnot h => hnot ((List.mem_insertionSort _).mp h)
      have hfilter : ∀ names : List String, s ∉ names → s ∉ names.filter q :=
        fun names hnot h => hnot (List.mem_filter.mp h).1
      constructor
      · intro _
        exact ⟨hnone _ _ (hmem _ hs), hnone _ _ (hmem _ hs')⟩
      · intro _
        exact ⟨hnone _ _ (hfilter _ hs), hnone _ _ (hfilter _ hs')⟩

/-- The recovery keeps the weights that a rebalance of the runner opens exactly when both trims are
alike. -/
theorem tradableBalancedWeights_eq_iff (selection : Selection) (prices : Dict String PyFloat) :
    tradableBalancedWeights selection prices = balance (tradableWeights selection prices none) ↔
      TrimsAlike selection prices := by
  have hw : (tradableWeights selection prices none).Sublist selection.weights.rows :=
    List.filter_sublist
  have hlongs := longNames_filter (fun s => prices.get? s ≠ some .nan)
    (tradableWeights selection prices none)
  have hshorts := shortNames_filter (fun s => prices.get? s ≠ some .nan)
    (tradableWeights selection prices none)
  rw [← pricedWeights_eq] at hlongs hshorts
  have hdisjoint : ∀ s ∈ longNames (tradableWeights selection prices none),
      s ∉ shortNames (tradableWeights selection prices none) := by
    intro s hs hs'
    obtain ⟨e, he, rfl⟩ := List.mem_map.mp hs
    obtain ⟨e', he', hname⟩ := List.mem_map.mp hs'
    obtain ⟨he, hpos⟩ := List.mem_filter.mp he
    obtain ⟨he', hneg⟩ := List.mem_filter.mp he'
    have heq : e' = e := selection.weights.eq_of_key_eq (hw.subset he') (hw.subset he) hname
    subst heq
    exact not_lt_of_pos (of_decide_eq_true hpos) (of_decide_eq_true hneg)
  have hlong : longNames (tradableWeights selection prices none) ⊆
      (tradableWeights selection prices none).map fun e => e.1 := (List.filter_sublist.map _).subset
  have hshort : shortNames (tradableWeights selection prices none) ⊆
      (tradableWeights selection prices none).map fun e => e.1 := (List.filter_sublist.map _).subset
  have hsides := sides_iff selection hlong hshort (nodup_longNames hw) (nodup_shortNames hw) hdisjoint
    (q := fun s => prices.get? s ≠ some .nan)
  rw [← hlongs, ← hshorts] at hsides
  rw [tradableBalancedWeights_eq, balance_eq hw, trimmed, trimmed, filter_pricedWeights_eq_iff]
  simp only [decide_eq_true_eq, decide_eq_false_iff_not, not_not, List.mem_map,
    forall_exists_index, and_imp, forall_apply_eq_imp_iff₂, ne_eq, id] at hsides ⊢
  constructor
  · intro h
    have hout : UnpricedTrimmed selection prices := by
      intro e he hnan
      by_contra hnot
      rw [not_or] at hnot
      have hkept := (h e he).mpr
        ⟨fun hin => hnot.1 ((mem_weakestNames_sorted (nodup_longNames hw)).mp hin),
          fun hin => hnot.2 ((mem_weakestNames_sorted (nodup_shortNames hw)).mp hin)⟩
      exact hkept.1 hnan
    have hties := (hsides hout).mp fun e he hq => by
      have hiff := h e he
      rwa [and_iff_right hq] at hiff
    exact ⟨hout, hties.1, hties.2⟩
  · intro h e he
    by_cases hnan : prices.get? e.1 = some .nan
    · have hdropped := h.unpriced e he hnan
      rw [← mem_weakestNames_sorted (nodup_longNames hw),
        ← mem_weakestNames_sorted (nodup_shortNames hw)] at hdropped
      constructor
      · intro hkept
        exact absurd hnan hkept.1
      · intro hkept
        exact absurd hdropped (not_or.mpr hkept)
    · rw [and_iff_right hnan]
      exact (hsides h.unpriced).mpr ⟨h.longs, h.shorts⟩ e he hnan

/-- Two long names tie at the bound of the clip, in the order of the universe. -/
def tiedSelection : Selection where
  weights := ⟨[("SOLUSDT", .fin (1 / 4)), ("BTCUSDT", .fin (1 / 4)), ("ETHUSDT", .fin (-1 / 4)),
    ("XRPUSDT", .fin (-1 / 4))], by decide⟩

/-- One short name has no price. -/
def tiedPrices : Dict String PyFloat :=
  ⟨[("SOLUSDT", .fin 150), ("BTCUSDT", .fin 60000), ("ETHUSDT", .fin 3000)], by decide⟩

/-- The runner opens the one name of the tie, the recovery the other. -/
theorem tie_trimmed_otherwise :
    tradableBalancedWeights tiedSelection tiedPrices =
        [("BTCUSDT", .fin (1 / 4)), ("ETHUSDT", .fin (-1 / 4))] ∧
      balance (tradableWeights tiedSelection tiedPrices none) =
        [("SOLUSDT", .fin (1 / 4)), ("ETHUSDT", .fin (-1 / 4))] := by
  decide +kernel

end PaperTrade.Recovery
