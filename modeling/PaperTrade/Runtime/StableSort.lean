import Mathlib.Data.List.Sort
import Mathlib.Tactic

/-!
# The first elements of a stable sort

`sortedBy key` sorts a list by a key and keeps tied elements in their order, as Python's `sorted` does.
The list falls into the elements below a key value, those tied at it and those above it
(`sortedBy_split`); so an element is among the first `n` exactly when it is among the first of its tie,
as many as the elements below leave over (`mem_take_sortedBy`). Two sorts by the same key, one from a
list in order and one from the list as it comes, start with the same elements exactly when the cut
falls into no tie that is out of order (`mem_take_iff_splitsInOrder`).

A list that may be in another order starts with its least elements, `StartsWithLeast`, exactly when no
element behind the cut is below one in front of it (`startsWithLeast_iff`).
-/

namespace PaperTrade.Runtime

variable {α κ : Type} [LinearOrder κ] (key : α → κ)

/-- `sorted(l, key=key)`. -/
def sortedBy (l : List α) : List α := l.insertionSort fun a b => key a ≤ key b

/-- The elements below a key value. -/
def below (v : κ) (l : List α) : List α := l.filter fun a => key a < v

/-- The elements tied at a key value, in the order of the list. -/
def tied (v : κ) (l : List α) : List α := l.filter fun a => key a = v

/-- The elements above a key value. -/
def above (v : κ) (l : List α) : List α := l.filter fun a => v < key a

variable {key}

lemma perm_sortedBy (l : List α) : (sortedBy key l).Perm l := List.perm_insertionSort _ l

lemma mem_sortedBy {l : List α} {a : α} : a ∈ sortedBy key l ↔ a ∈ l := (perm_sortedBy l).mem_iff

lemma length_sortedBy (l : List α) : (sortedBy key l).length = l.length := (perm_sortedBy l).length_eq

/-- A relation that agrees with the order of the keys sorts alike. -/
lemma insertionSort_eq_sortedBy {r : α → α → Prop} [DecidableRel r] {l : List α}
    (h : ∀ a ∈ l, ∀ b ∈ l, r a b ↔ key a ≤ key b) : l.insertionSort r = sortedBy key l := by
  have hmap := List.map_insertionSort r (fun a b => key a ≤ key b) id l h
  rw [List.map_id, List.map_id] at hmap
  exact hmap

/-! ## Where a sort puts an element -/

/-- An insertion goes behind everything smaller. -/
lemma orderedInsert_append {a : α} {l m : List α} (h : ∀ b ∈ l, ¬ key a ≤ key b) :
    (l ++ m).orderedInsert (fun a b => key a ≤ key b) a =
      l ++ m.orderedInsert (fun a b => key a ≤ key b) a := by
  induction l with
  | nil => rfl
  | cons b l ih =>
    rw [List.cons_append, List.orderedInsert, if_neg (h b (List.mem_cons_self ..)),
      ih fun c hc => h c (List.mem_cons_of_mem _ hc), List.cons_append]

/-- An insertion goes in front of everything that is not smaller. -/
lemma orderedInsert_append_of_le {a : α} {l m : List α} (h : ∀ b ∈ m, key a ≤ key b) :
    (l ++ m).orderedInsert (fun a b => key a ≤ key b) a =
      l.orderedInsert (fun a b => key a ≤ key b) a ++ m := by
  induction l with
  | nil =>
    cases m with
    | nil => rfl
    | cons b m => exact List.orderedInsert_cons_of_le _ m (h b (List.mem_cons_self ..))
  | cons b l ih =>
    rw [List.cons_append, List.orderedInsert, List.orderedInsert]
    split
    · rfl
    · rw [ih, List.cons_append]

/-- A stable sort is the sort of what is below a value, then the tie as it is, then the rest. -/
theorem sortedBy_split (v : κ) (l : List α) :
    sortedBy key l = sortedBy key (below key v l) ++ (tied key v l ++ sortedBy key (above key v l)) := by
  induction l with
  | nil => rfl
  | cons a l ih =>
    have hbelow : ∀ b ∈ sortedBy key (below key v l), key b < v := by
      intro b hb
      exact of_decide_eq_true (List.mem_filter.mp (mem_sortedBy.mp hb)).2
    have htied : ∀ b ∈ tied key v l, key b = v := by
      intro b hb
      exact of_decide_eq_true (List.mem_filter.mp hb).2
    have habove : ∀ b ∈ sortedBy key (above key v l), v < key b := by
      intro b hb
      exact of_decide_eq_true (List.mem_filter.mp (mem_sortedBy.mp hb)).2
    have hcons : sortedBy key (a :: l) =
        (sortedBy key l).orderedInsert (fun a b => key a ≤ key b) a := rfl
    rw [hcons, ih]
    rcases lt_trichotomy (key a) v with hlt | heq | hgt
    · have hfront : below key v (a :: l) = a :: below key v l := List.filter_cons_of_pos (by simpa)
      have htie : tied key v (a :: l) = tied key v l := List.filter_cons_of_neg (by simpa using hlt.ne)
      have hrest : above key v (a :: l) = above key v l :=
        List.filter_cons_of_neg (by simpa using hlt.le)
      rw [hfront, htie, hrest, orderedInsert_append_of_le]
      · rfl
      · intro b hb
        rcases List.mem_append.mp hb with hb | hb
        · exact htied b hb ▸ hlt.le
        · exact (hlt.trans (habove b hb)).le
    · have hfront : below key v (a :: l) = below key v l :=
        List.filter_cons_of_neg (by simpa using heq.ge)
      have htie : tied key v (a :: l) = a :: tied key v l := List.filter_cons_of_pos (by simpa)
      have hrest : above key v (a :: l) = above key v l :=
        List.filter_cons_of_neg (by simpa using heq.le)
      rw [hfront, htie, hrest, orderedInsert_append fun b hb => heq ▸ not_le.mpr (hbelow b hb)]
      congr 1
      have hle : ∀ b ∈ tied key v l ++ sortedBy key (above key v l), key a ≤ key b := by
        intro b hb
        rcases List.mem_append.mp hb with hb | hb
        · rw [htied b hb, heq]
        · exact heq ▸ (habove b hb).le
      exact orderedInsert_append_of_le (l := []) hle
    · have hfront : below key v (a :: l) = below key v l :=
        List.filter_cons_of_neg (by simpa using hgt.le)
      have htie : tied key v (a :: l) = tied key v l := List.filter_cons_of_neg (by simpa using hgt.ne')
      have hrest : above key v (a :: l) = a :: above key v l := List.filter_cons_of_pos (by simpa)
      rw [hfront, htie, hrest,
        orderedInsert_append fun b hb => not_le.mpr ((hbelow b hb).trans hgt),
        orderedInsert_append fun b hb => not_le.mpr (htied b hb ▸ hgt)]
      rfl

/-- An element is among the first `n` when it is among the first of its tie that the elements below
leave room for. -/
theorem mem_take_sortedBy {l : List α} {n : ℕ} {a : α} :
    a ∈ (sortedBy key l).take n ↔
      a ∈ (tied key (key a) l).take (n - (below key (key a) l).length) := by
  rw [sortedBy_split (key a), List.take_append, List.take_append, length_sortedBy, List.mem_append,
    List.mem_append]
  constructor
  · rintro (h | h | h)
    · have hlt := (List.mem_filter.mp (mem_sortedBy.mp (List.mem_of_mem_take h))).2
      exact absurd (of_decide_eq_true hlt) (lt_irrefl _)
    · exact h
    · have hlt := (List.mem_filter.mp (mem_sortedBy.mp (List.mem_of_mem_take h))).2
      exact absurd (of_decide_eq_true hlt) (lt_irrefl _)
  · intro h
    exact .inr (.inl h)

/-! ## Parts of a sort -/

/-- The sort of a part of the list. -/
theorem filter_sortedBy (p : α → Bool) (l : List α) :
    (sortedBy key l).filter p = sortedBy key (l.filter p) := by
  induction l with
  | nil => rfl
  | cons a l ih =>
    have hcons : sortedBy key (a :: l) =
        (sortedBy key l).orderedInsert (fun a b => key a ≤ key b) a := rfl
    have hsorted : (sortedBy key l).Pairwise fun a b => key a ≤ key b :=
      List.pairwise_insertionSort (fun a b => key a ≤ key b) l
    have hinsert : ∀ m : List α, m.Pairwise (fun a b => key a ≤ key b) →
        (m.orderedInsert (fun a b => key a ≤ key b) a).filter p =
          if p a then (m.filter p).orderedInsert (fun a b => key a ≤ key b) a else m.filter p := by
      intro m hm
      induction m with
      | nil => simp [List.filter_cons]
      | cons b m ihm =>
        obtain ⟨hb, hm⟩ := List.pairwise_cons.mp hm
        rw [List.orderedInsert]
        by_cases hab : key a ≤ key b
        · rw [if_pos hab]
          by_cases ha : p a
          · have hall : ∀ c ∈ (b :: m).filter p, key a ≤ key c := by
              intro c hc
              rcases List.mem_cons.mp (List.mem_filter.mp hc).1 with rfl | hc
              · exact hab
              · exact hab.trans (hb c hc)
            have hle := orderedInsert_append_of_le (l := []) hall
            rw [List.nil_append] at hle
            rw [List.filter_cons_of_pos ha, if_pos ha, hle]
            rfl
          · rw [List.filter_cons_of_neg ha, if_neg ha]
        · rw [if_neg hab]
          by_cases hpb : p b
          · rw [List.filter_cons_of_pos hpb, List.filter_cons_of_pos hpb, ihm hm, List.orderedInsert,
              if_neg hab]
            split <;> rfl
          · rw [List.filter_cons_of_neg hpb, List.filter_cons_of_neg hpb, ihm hm]
    rw [hcons, hinsert _ hsorted, ih]
    by_cases ha : p a
    · rw [if_pos ha, List.filter_cons_of_pos ha]
      rfl
    · rw [if_neg ha, List.filter_cons_of_neg ha]

/-- When what a part leaves out is all among the first `k`, the others among them are the first of
the part. -/
lemma take_filter {l : List α} {k : ℕ} {p : α → Bool} (hk : k ≤ l.length)
    (h : ∀ a ∈ l.drop k, p a = true) :
    (l.filter p).take (k - (l.filter fun a => !p a).length) = (l.take k).filter p := by
  have hdrop : (l.drop k).filter p = l.drop k := List.filter_eq_self.mpr h
  have hnone : (l.drop k).filter (fun a => !p a) = [] :=
    List.filter_eq_nil_iff.mpr fun a ha => by simp [h a ha]
  have hsplit : l.filter p = (l.take k).filter p ++ l.drop k := by
    rw [← hdrop, ← List.filter_append, List.take_append_drop]
  have hout : l.filter (fun a => !p a) = (l.take k).filter fun a => !p a := by
    rw [← List.take_append_drop k l, List.filter_append, List.take_append_drop, hnone, List.append_nil]
  have hcount : ((l.take k).filter p).length + ((l.take k).filter fun a => !p a).length = k := by
    rw [← List.length_eq_length_filter_add, List.length_take, Nat.min_eq_left hk]
  rw [hsplit, hout, List.take_append_of_le_length (by omega), List.take_of_length_le (by omega)]

/-! ## A cut at another order -/

variable (key) in
lemma pairwise_sortedBy (l : List α) : (sortedBy key l).Pairwise fun a b => key a ≤ key b :=
  List.pairwise_insertionSort (fun a b => key a ≤ key b) l

variable (key) in
/-- The first `n` elements have the keys of the `n` least ones. -/
def StartsWithLeast (n : ℕ) (l : List α) : Prop :=
  ((l.take n).map key).Perm (((sortedBy key l).take n).map key)

instance (n : ℕ) (l : List α) : Decidable (StartsWithLeast key n l) := by
  unfold StartsWithLeast
  infer_instance

/-- A sort of two parts, the keys of one not above those of the other, sorts each part. -/
lemma sortedBy_append {l m : List α} (h : ∀ a ∈ l, ∀ b ∈ m, key a ≤ key b) :
    ((sortedBy key (l ++ m)).map key) = (sortedBy key l ++ sortedBy key m).map key := by
  have hwhole : ((sortedBy key (l ++ m)).map key).Pairwise (· ≤ ·) :=
    List.pairwise_map.mpr (pairwise_sortedBy key _)
  have hparts : ((sortedBy key l ++ sortedBy key m).map key).Pairwise (· ≤ ·) := by
    refine List.pairwise_map.mpr (List.pairwise_append.mpr
      ⟨pairwise_sortedBy key _, pairwise_sortedBy key _, fun a ha b hb => ?_⟩)
    exact h a (mem_sortedBy.mp ha) b (mem_sortedBy.mp hb)
  have hperm : (sortedBy key (l ++ m)).Perm (sortedBy key l ++ sortedBy key m) :=
    (perm_sortedBy _).trans ((perm_sortedBy l).append (perm_sortedBy m)).symm
  exact (hperm.map key).eq_of_pairwise (fun _ _ _ _ => le_antisymm) hwhole hparts

/-- A list starts with its least elements exactly when none behind the cut is below one in front. -/
theorem startsWithLeast_iff (n : ℕ) (l : List α) :
    StartsWithLeast key n l ↔ ∀ a ∈ l.take n, ∀ b ∈ l.drop n, key a ≤ key b := by
  constructor
  · intro h a ha b hb
    have hwhole : (l.map key).Perm ((sortedBy key l).map key) := (perm_sortedBy l).symm.map key
    rw [← List.take_append_drop n l, List.map_append] at hwhole
    rw [List.take_append_drop n l, ← List.take_append_drop n (sortedBy key l), List.map_append] at hwhole
    -- what the two cuts leave over has the same keys too
    have hrest : ((l.drop n).map key).Perm (((sortedBy key l).drop n).map key) :=
      (List.perm_append_left_iff _).mp (hwhole.trans (h.symm.append_right _))
    obtain ⟨a', ha', hkeya⟩ := List.mem_map.mp (h.mem_iff.mp (List.mem_map_of_mem ha))
    obtain ⟨b', hb', hkeyb⟩ := List.mem_map.mp (hrest.mem_iff.mp (List.mem_map_of_mem hb))
    have hsorted := pairwise_sortedBy key l
    rw [← List.take_append_drop n (sortedBy key l)] at hsorted
    have hle := (List.pairwise_append.mp hsorted).2.2 a' ha' b' hb'
    rwa [hkeya, hkeyb] at hle
  · intro h
    have happend := sortedBy_append h
    rw [List.take_append_drop] at happend
    have hlength : (sortedBy key (l.take n)).length = (l.take n).length := length_sortedBy _
    by_cases hn : n ≤ l.length
    · have htake : (sortedBy key (l.take n)).length = n := by
        rw [hlength, List.length_take, Nat.min_eq_left hn]
      unfold StartsWithLeast
      rw [List.map_take, List.map_take, happend, List.map_append, List.take_left' (by
        rw [List.length_map, htake]), ← List.map_take]
      exact ((perm_sortedBy _).map key).symm
    · have hall : l.length ≤ n := (Nat.not_le.mp hn).le
      unfold StartsWithLeast
      rw [List.take_of_length_le hall, List.take_of_length_le ((length_sortedBy l).le.trans hall)]
      exact ((perm_sortedBy l).map key).symm

/-! ## Two orders -/

section Orders

variable [LT α] [LE α] [DecidableLT α] [DecidableLE α] [Std.IsLinearOrder α] [Std.LawfulOrderLT α]

variable (key) in
/-- Where the first `n` of the sort end inside a tie, the elements of it that stand first are the
least. -/
def SplitsInOrder (n : ℕ) (l : List α) : Prop :=
  ∀ v ∈ l.map key, ∀ a ∈ (tied key v l).take (n - (below key v l).length),
    ∀ b ∈ (tied key v l).drop (n - (below key v l).length), a < b

instance (n : ℕ) (l : List α) : Decidable (SplitsInOrder key n l) := by
  unfold SplitsInOrder
  infer_instance

omit [DecidableLT α] in
/-- Two lists of the same elements, one of them in order, start with the same ones when the other
starts with the least. -/
lemma mem_take_iff_of_sorted {l l' : List α} (hl : l.Pairwise (· < ·)) (hperm : l.Perm l') (m : ℕ) :
    (∀ a, a ∈ l.take m ↔ a ∈ l'.take m) ↔ ∀ a ∈ l'.take m, ∀ b ∈ l'.drop m, a < b := by
  have hnodup : l'.Nodup := hperm.nodup_iff.mp (hl.imp fun h => Std.ne_of_lt h)
  have hdisjoint : ∀ a ∈ l'.take m, a ∉ l'.drop m := by
    intro a ha hb
    have hsplit := List.take_append_drop m l'
    rw [← hsplit, List.nodup_append] at hnodup
    exact hnodup.2.2 a ha a hb rfl
  constructor
  · intro h a ha b hb
    have hcross : ∀ a ∈ l.take m, ∀ b ∈ l.drop m, a < b := by
      have hl' := hl
      rw [← List.take_append_drop m l, List.pairwise_append] at hl'
      exact hl'.2.2
    have hmem : b ∈ l := hperm.mem_iff.mpr (List.mem_of_mem_drop hb)
    rw [← List.take_append_drop m l, List.mem_append] at hmem
    rcases hmem with hmem | hmem
    · exact absurd hb (hdisjoint b ((h b).mp hmem))
    · exact hcross a ((h a).mpr ha) b hmem
  · intro h a
    -- both parts of the other list, each put in order
    have hsorted : ((l'.take m).insertionSort (· ≤ ·) ++ (l'.drop m).insertionSort (· ≤ ·)).Pairwise
        (· ≤ ·) := by
      rw [List.pairwise_append]
      refine ⟨List.pairwise_insertionSort _ _, List.pairwise_insertionSort _ _, ?_⟩
      intro a ha b hb
      exact Std.le_of_lt (h a ((List.mem_insertionSort _).mp ha) b ((List.mem_insertionSort _).mp hb))
    have hall : l.Perm ((l'.take m).insertionSort (· ≤ ·) ++ (l'.drop m).insertionSort (· ≤ ·)) := by
      refine hperm.trans ?_
      have hparts := ((List.perm_insertionSort (· ≤ ·) (l'.take m)).append
        (List.perm_insertionSort (· ≤ ·) (l'.drop m))).symm
      rwa [List.take_append_drop] at hparts
    have heq := hall.eq_of_pairwise' (hl.imp fun h => Std.le_of_lt h) hsorted
    have hlength : ((l'.take m).insertionSort (· ≤ ·)).length = (l'.take m).length :=
      List.length_insertionSort _ _
    have hmem : a ∈ l.take m ↔ a ∈ (l'.take m).insertionSort (· ≤ ·) := by
      rw [heq]
      by_cases hm : m ≤ l'.length
      · rw [List.take_left' (by rw [hlength, List.length_take, Nat.min_eq_left hm])]
      · have hnil : l'.drop m = [] := List.drop_eq_nil_of_le (by omega)
        rw [hnil, List.insertionSort_nil, List.append_nil, List.take_of_length_le]
        rw [hlength, List.length_take]
        exact Nat.min_le_left ..
    rw [hmem, List.mem_insertionSort]

omit [DecidableLE α] in
/-- Among the first of a list in order. -/
lemma mem_take_of_sorted {l : List α} (hl : l.Pairwise (· < ·)) {a : α} (ha : a ∈ l) (m : ℕ) :
    a ∈ l.take m ↔ (l.filter (· < a)).length < m := by
  induction l generalizing m with
  | nil => exact absurd ha List.not_mem_nil
  | cons b l ih =>
    obtain ⟨hb, hl⟩ := List.pairwise_cons.mp hl
    cases m with
    | zero => simp
    | succ m =>
      rw [List.take_succ_cons, List.mem_cons]
      by_cases hab : a = b
      · subst hab
        have hnone : (a :: l).filter (· < a) = [] := by
          apply List.filter_eq_nil_iff.mpr
          intro c hc
          rcases List.mem_cons.mp hc with rfl | hc
          · simp [Std.lt_irrefl]
          · simpa using Std.not_lt.mpr (Std.le_of_lt (hb c hc))
        simp [hnone]
      · have hmem : a ∈ l := (List.mem_cons.mp ha).resolve_left hab
        rw [List.filter_cons_of_pos (by simpa using hb a hmem), List.length_cons, ih hl hmem]
        simp [hab]

omit [DecidableLT α] in
lemma sorted_tied {l : List α} (hl : l.Nodup) (v : κ) :
    (tied key v (l.insertionSort (· ≤ ·))).Pairwise (· < ·) := by
  have hle := List.pairwise_insertionSort (· ≤ ·) l
  have hne : (l.insertionSort (· ≤ ·)).Nodup := (List.perm_insertionSort (· ≤ ·) l).nodup_iff.mpr hl
  exact (hle.and hne).imp (fun h => Std.lt_of_le_of_ne h.1 h.2) |>.filter _

/-- A sort of the list in order starts with the elements that have few before them, by the key and
then by the order. -/
theorem mem_take_sortedBy_insertionSort {l : List α} (hl : l.Nodup) {n : ℕ} {a : α} (ha : a ∈ l) :
    a ∈ (sortedBy key (l.insertionSort (· ≤ ·))).take n ↔
      (l.filter fun b => key b < key a ∨ key b = key a ∧ b < a).length < n := by
  have hperm := List.perm_insertionSort (· ≤ ·) l
  have hmem : a ∈ tied key (key a) (l.insertionSort (· ≤ ·)) :=
    List.mem_filter.mpr ⟨hperm.mem_iff.mpr ha, decide_eq_true rfl⟩
  have hbelow : (below key (key a) (l.insertionSort (· ≤ ·))).length =
      (l.filter fun b => key b < key a).length := (hperm.filter _).length_eq
  have htied : ((tied key (key a) (l.insertionSort (· ≤ ·))).filter (· < a)).length =
      (l.filter fun b => key b = key a ∧ b < a).length := by
    rw [tied, List.filter_filter]
    refine ((hperm.filter _).length_eq).trans (congrArg List.length ?_)
    apply List.filter_congr
    intro b _
    rw [Bool.decide_and, Bool.and_comm]
  have hcount : (l.filter fun b => key b < key a ∨ key b = key a ∧ b < a).length =
      (l.filter fun b => key b < key a).length +
        (l.filter fun b => key b = key a ∧ b < a).length := by
    clear hperm hmem hbelow htied ha hl
    induction l with
    | nil => rfl
    | cons b l ih =>
      simp only [Bool.decide_or, Bool.decide_and] at ih ⊢
      rcases lt_trichotomy (key b) (key a) with h | h | h
      · simp [h, h.ne]
        omega
      · by_cases hba : b < a
        · simp [h, hba]
          omega
        · simp [h, hba, ih]
      · simp [h.not_gt, h.ne', ih]
  rw [mem_take_sortedBy, mem_take_of_sorted (sorted_tied hl _) hmem, htied, hbelow, hcount]
  omega

omit [LT α] [DecidableLT α] [Std.LawfulOrderLT α] in
/-- When the first `n` contain all that a part leaves out, the others among them are the first of the
part, by as many fewer. -/
theorem filter_take_sortedBy {l : List α} (hl : l.Nodup) {n : ℕ} (hn : n ≤ l.length) {p : α → Bool}
    (h : ∀ a ∈ l, p a = false → a ∈ (sortedBy key (l.insertionSort (· ≤ ·))).take n) :
    (l.filter fun a => !p a).length ≤ n ∧
      ((sortedBy key (l.insertionSort (· ≤ ·))).take n).filter p =
        (sortedBy key ((l.filter p).insertionSort (· ≤ ·))).take
          (n - (l.filter fun a => !p a).length) := by
  have hperm : (sortedBy key (l.insertionSort (· ≤ ·))).Perm l :=
    (perm_sortedBy _).trans (List.perm_insertionSort _ l)
  have hnodup := hperm.nodup_iff.mpr hl
  have hlength := hperm.length_eq
  have hdrop : ∀ a ∈ (sortedBy key (l.insertionSort (· ≤ ·))).drop n, p a = true := by
    intro a ha
    by_contra hp
    have hin := h a (hperm.mem_iff.mp (List.mem_of_mem_drop ha)) (Bool.eq_false_iff.mpr hp)
    rw [← List.take_append_drop n (sortedBy key (l.insertionSort (· ≤ ·))), List.nodup_append] at hnodup
    exact hnodup.2.2 a hin a ha rfl
  have hout := (hperm.filter fun a => !p a).length_eq
  have hpart : (l.insertionSort (· ≤ ·)).filter p = (l.filter p).insertionSort (· ≤ ·) := by
    refine List.Perm.eq_of_pairwise' ((List.pairwise_insertionSort (· ≤ ·) l).filter p)
      (List.pairwise_insertionSort (· ≤ ·) (l.filter p)) ?_
    exact ((List.perm_insertionSort _ l).filter p).trans (List.perm_insertionSort _ _).symm
  have htake := take_filter (hlength ▸ hn) hdrop
  rw [hout, filter_sortedBy, hpart] at htake
  refine ⟨?_, htake.symm⟩
  have hnone : ((sortedBy key (l.insertionSort (· ≤ ·))).drop n).filter (fun a => !p a) = [] :=
    List.filter_eq_nil_iff.mpr fun a ha => by simp [hdrop a ha]
  rw [← hout, ← List.take_append_drop n (sortedBy key (l.insertionSort (· ≤ ·))), List.filter_append,
    hnone, List.append_nil]
  refine (List.length_filter_le _ _).trans ?_
  rw [List.length_take]
  exact Nat.min_le_left ..

/-- A sort of the list in order and a sort of the list as it is start with the same elements exactly
when the cut splits no tie out of order. -/
theorem mem_take_iff_splitsInOrder {l : List α} (hl : l.Nodup) (n : ℕ) :
    (∀ a ∈ l, a ∈ (sortedBy key (l.insertionSort (· ≤ ·))).take n ↔ a ∈ (sortedBy key l).take n) ↔
      SplitsInOrder key n l := by
  have hperm := List.perm_insertionSort (· ≤ ·) l
  have hlength : ∀ v, (below key v (l.insertionSort (· ≤ ·))).length = (below key v l).length :=
    fun v => (hperm.filter _).length_eq
  have htie : ∀ v, (∀ a, a ∈ (tied key v (l.insertionSort (· ≤ ·))).take
        (n - (below key v l).length) ↔
      a ∈ (tied key v l).take (n - (below key v l).length)) ↔ _ :=
    fun v => mem_take_iff_of_sorted (sorted_tied hl v) (hperm.filter _) _
  constructor
  · intro h v hv
    apply (htie v).mp
    intro a
    -- only the elements of the tie can be in either list
    by_cases ha : a ∈ l ∧ key a = v
    · obtain ⟨hmem, rfl⟩ := ha
      have hsame := h a hmem
      rwa [mem_take_sortedBy, mem_take_sortedBy, hlength] at hsame
    · constructor
      · intro hmem
        have hfilter := List.mem_filter.mp (List.mem_of_mem_take hmem)
        exact absurd ⟨hperm.mem_iff.mp hfilter.1, of_decide_eq_true hfilter.2⟩ ha
      · intro hmem
        have hfilter := List.mem_filter.mp (List.mem_of_mem_take hmem)
        exact absurd ⟨hfilter.1, of_decide_eq_true hfilter.2⟩ ha
  · intro h a ha
    rw [mem_take_sortedBy, mem_take_sortedBy, hlength]
    exact (htie (key a)).mpr (h (key a) (List.mem_map_of_mem ha)) a

end Orders

end PaperTrade.Runtime
