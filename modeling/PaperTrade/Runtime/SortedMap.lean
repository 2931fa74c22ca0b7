import Mathlib.Data.List.Nodup
import Mathlib.Tactic

/-!
# Bounded sorted maps

A finite map with ordered keys, kept as the list of its entries with the greatest key first. `upsert`
overwrites or inserts a key, and `keep n` drops all but the `n` greatest keys. A bounded map applies
both in turn; dropping early or late makes no difference (`put_keep`), so what a number of upserts of
different keys leave behind does not depend on their order (`foldl_put_perm`).
-/

namespace PaperTrade.Runtime

/-- A finite map: its entries, the greatest key first. -/
structure SortedMap (κ ν : Type) [LT κ] where
  entries : List (κ × ν)
  sorted : entries.Pairwise fun a b => b.1 < a.1

namespace SortedMap

variable {κ ν : Type} [LinearOrder κ]

@[ext] theorem ext {m m' : SortedMap κ ν} (h : m.entries = m'.entries) : m = m' := by
  cases m
  cases m'
  cases h
  rfl

/-- The map without entries. -/
def empty : SortedMap κ ν := ⟨[], .nil⟩

/-! ## Lists of entries -/

/-- Overwrite the entry of a key, or insert one in front of the smaller keys. -/
def upsertEntry (k : κ) (v : ν) : List (κ × ν) → List (κ × ν)
  | [] => [(k, v)]
  | e :: l => if e.1 < k then (k, v) :: e :: l else if e.1 = k then (k, v) :: l
    else e :: upsertEntry k v l

section Entries

variable {k k' : κ} {v v' : ν} {l : List (κ × ν)}

lemma upsertEntry_of_lt {e : κ × ν} (h : e.1 < k) : upsertEntry k v (e :: l) = (k, v) :: e :: l := by
  rw [upsertEntry, if_pos h]

lemma upsertEntry_of_eq {e : κ × ν} (h : e.1 = k) : upsertEntry k v (e :: l) = (k, v) :: l := by
  rw [upsertEntry, if_neg (h ▸ lt_irrefl _), if_pos h]

lemma upsertEntry_of_gt {e : κ × ν} (h : k < e.1) :
    upsertEntry k v (e :: l) = e :: upsertEntry k v l := by
  rw [upsertEntry, if_neg h.asymm, if_neg h.ne']

lemma key_of_mem_upsertEntry {e : κ × ν} (h : e ∈ upsertEntry k v l) : e.1 = k ∨ e ∈ l := by
  induction l with
  | nil => exact .inl (by rw [List.mem_singleton.mp h])
  | cons a l ih =>
    rcases lt_trichotomy a.1 k with hlt | heq | hgt
    · rw [upsertEntry_of_lt hlt, List.mem_cons] at h
      rcases h with rfl | h
      · exact .inl rfl
      · exact .inr h
    · rw [upsertEntry_of_eq heq, List.mem_cons] at h
      rcases h with rfl | h
      · exact .inl rfl
      · exact .inr (List.mem_cons_of_mem _ h)
    · rw [upsertEntry_of_gt hgt, List.mem_cons] at h
      rcases h with rfl | h
      · exact .inr (List.mem_cons_self ..)
      · exact (ih h).imp_right (List.mem_cons_of_mem _)

lemma sorted_upsertEntry (h : l.Pairwise fun a b => b.1 < a.1) :
    (upsertEntry k v l).Pairwise fun a b => b.1 < a.1 := by
  induction l with
  | nil => exact List.pairwise_singleton ..
  | cons e l ih =>
    have hsmaller := (List.pairwise_cons.mp h).1
    rcases lt_trichotomy e.1 k with hlt | heq | hgt
    · rw [upsertEntry_of_lt hlt, List.pairwise_cons]
      refine ⟨fun a ha => ?_, h⟩
      rcases List.mem_cons.mp ha with rfl | ha
      · exact hlt
      · exact (hsmaller a ha).trans hlt
    · rw [upsertEntry_of_eq heq, List.pairwise_cons]
      exact ⟨fun a ha => heq ▸ hsmaller a ha, h.of_cons⟩
    · rw [upsertEntry_of_gt hgt, List.pairwise_cons]
      refine ⟨fun a ha => ?_, ih h.of_cons⟩
      rcases key_of_mem_upsertEntry ha with hk | ha
      · exact hk ▸ hgt
      · exact hsmaller a ha

/-- Under greater keys. -/
lemma upsertEntry_append {front : List (κ × ν)} (h : ∀ a ∈ front, k < a.1) :
    upsertEntry k v (front ++ l) = front ++ upsertEntry k v l := by
  induction front with
  | nil => rfl
  | cons a front ih =>
    rw [List.cons_append, upsertEntry_of_gt (h a (List.mem_cons_self ..)),
      ih fun b hb => h b (List.mem_cons_of_mem _ hb), List.cons_append]

/-- Over smaller keys. -/
lemma upsertEntry_cons (h : ∀ a ∈ l, a.1 < k) : upsertEntry k v l = (k, v) :: l := by
  cases l with
  | nil => rfl
  | cons a l => exact upsertEntry_of_lt (h a (List.mem_cons_self ..))

lemma upsertEntry_comm (hne : k ≠ k') (l : List (κ × ν)) :
    upsertEntry k v (upsertEntry k' v' l) = upsertEntry k' v' (upsertEntry k v l) := by
  induction l with
  | nil =>
    rcases hne.lt_or_gt with h | h
    · rw [upsertEntry, upsertEntry_of_gt h, upsertEntry, upsertEntry_of_lt h]
    · rw [upsertEntry, upsertEntry_of_lt h, upsertEntry, upsertEntry_of_gt h, upsertEntry]
  | cons e l ih =>
    rcases lt_trichotomy e.1 k with hk | hk | hk <;> rcases lt_trichotomy e.1 k' with hk' | hk' | hk'
    · rw [upsertEntry_of_lt hk, upsertEntry_of_lt hk']
      rcases hne.lt_or_gt with h | h
      · rw [upsertEntry_of_gt h, upsertEntry_of_lt hk, upsertEntry_of_lt h]
      · rw [upsertEntry_of_lt h, upsertEntry_of_gt h, upsertEntry_of_lt hk']
    · rw [upsertEntry_of_lt hk, upsertEntry_of_eq hk', upsertEntry_of_lt (hk' ▸ hk),
        upsertEntry_of_gt (hk' ▸ hk), upsertEntry_of_eq hk']
    · rw [upsertEntry_of_lt hk, upsertEntry_of_gt hk', upsertEntry_of_lt hk,
        upsertEntry_of_gt (hk'.trans hk), upsertEntry_of_gt hk']
    · rw [upsertEntry_of_eq hk, upsertEntry_of_lt hk', upsertEntry_of_gt (hk ▸ hk'),
        upsertEntry_of_eq hk, upsertEntry_of_lt (hk ▸ hk')]
    · exact absurd (hk.symm.trans hk') hne
    · rw [upsertEntry_of_eq hk, upsertEntry_of_gt hk', upsertEntry_of_eq hk,
        upsertEntry_of_gt (hk ▸ hk')]
    · rw [upsertEntry_of_gt hk, upsertEntry_of_lt hk', upsertEntry_of_gt (hk.trans hk'),
        upsertEntry_of_gt hk, upsertEntry_of_lt hk']
    · rw [upsertEntry_of_gt hk, upsertEntry_of_eq hk', upsertEntry_of_gt (hk' ▸ hk),
        upsertEntry_of_eq hk']
    · rw [upsertEntry_of_gt hk, upsertEntry_of_gt hk', upsertEntry_of_gt hk, upsertEntry_of_gt hk', ih]

/-- Cutting before an upsert changes nothing when the list is cut after it. -/
lemma take_upsertEntry_take (n : ℕ) (l : List (κ × ν)) :
    (upsertEntry k v (l.take n)).take n = (upsertEntry k v l).take n := by
  induction l generalizing n with
  | nil => rw [List.take_nil]
  | cons e l ih =>
    cases n with
    | zero => rw [List.take_zero, List.take_zero]
    | succ n =>
      rw [List.take_succ_cons]
      rcases lt_trichotomy e.1 k with hlt | heq | hgt
      · have htail : (e :: l.take n).take n = (e :: l).take n := by
          cases n with
          | zero => rfl
          | succ n => rw [List.take_succ_cons, List.take_succ_cons, List.take_take,
              Nat.min_eq_left (Nat.le_succ n)]
        rw [upsertEntry_of_lt hlt, upsertEntry_of_lt hlt, List.take_succ_cons, List.take_succ_cons, htail]
      · rw [upsertEntry_of_eq heq, upsertEntry_of_eq heq, List.take_succ_cons, List.take_succ_cons,
          List.take_take, Nat.min_self]
      · rw [upsertEntry_of_gt hgt, upsertEntry_of_gt hgt, List.take_succ_cons, List.take_succ_cons, ih]

end Entries

/-! ## Operations -/

/-- `m[k] = v`. -/
def upsert (m : SortedMap κ ν) (k : κ) (v : ν) : SortedMap κ ν :=
  ⟨upsertEntry k v m.entries, sorted_upsertEntry m.sorted⟩

/-- The `n` greatest keys. -/
def keep (m : SortedMap κ ν) (n : ℕ) : SortedMap κ ν :=
  ⟨m.entries.take n, m.sorted.sublist (List.take_sublist _ _)⟩

/-- An upsert into a map of at most `n` keys. -/
def put (n : ℕ) (m : SortedMap κ ν) (e : κ × ν) : SortedMap κ ν := (m.upsert e.1 e.2).keep n

@[simp] theorem entries_empty : (empty : SortedMap κ ν).entries = [] := rfl

@[simp] theorem entries_upsert (m : SortedMap κ ν) (k : κ) (v : ν) :
    (m.upsert k v).entries = upsertEntry k v m.entries := rfl

@[simp] theorem entries_keep (m : SortedMap κ ν) (n : ℕ) :
    (m.keep n).entries = m.entries.take n := rfl

@[simp] theorem keep_empty (n : ℕ) : (empty : SortedMap κ ν).keep n = empty := ext List.take_nil

theorem keep_keep (m : SortedMap κ ν) (n : ℕ) : (m.keep n).keep n = m.keep n :=
  ext (by rw [entries_keep, entries_keep, List.take_take, Nat.min_self])

theorem upsert_comm (m : SortedMap κ ν) {k k' : κ} (h : k ≠ k') (v v' : ν) :
    (m.upsert k' v').upsert k v = (m.upsert k v).upsert k' v' :=
  ext (upsertEntry_comm h m.entries)

theorem put_keep (n : ℕ) (m : SortedMap κ ν) (e : κ × ν) : put n (m.keep n) e = put n m e :=
  ext (take_upsertEntry_take n m.entries)

/-- The bound may be applied at the end. -/
theorem foldl_put_keep (n : ℕ) (l : List (κ × ν)) (m : SortedMap κ ν) :
    l.foldl (put n) (m.keep n) = (l.foldl (fun m e => m.upsert e.1 e.2) m).keep n := by
  induction l generalizing m with
  | nil => rfl
  | cons e l ih => rw [List.foldl_cons, List.foldl_cons, put_keep, put, ih]

/-- Upserts of different keys under one bound may come in any order. -/
theorem foldl_put_perm {n : ℕ} {l l' : List (κ × ν)} (hperm : l.Perm l')
    (hnodup : (l.map Prod.fst).Nodup) {m : SortedMap κ ν} (hm : m.keep n = m) :
    l.foldl (put n) m = l'.foldl (put n) m := by
  rw [← hm, foldl_put_keep, foldl_put_keep]
  congr 1
  refine hperm.foldl_eq' (fun a ha b hb z => ?_) m
  by_cases hab : a.1 = b.1
  · rw [List.inj_on_of_nodup_map hnodup ha hb hab]
  · exact upsert_comm z (Ne.symm hab) b.2 a.2

/-! ## Keys -/

/-- The keys, the greatest first. -/
def keys (m : SortedMap κ ν) : List κ := m.entries.map Prod.fst

lemma sorted_keys (m : SortedMap κ ν) : m.keys.Pairwise (· > ·) := m.sorted.map _ fun _ _ h => h

lemma nodup_keys (m : SortedMap κ ν) : m.keys.Nodup := m.sorted_keys.imp fun h => h.ne'

lemma mem_keys_upsert {m : SortedMap κ ν} {k x : κ} {v : ν} :
    x ∈ (m.upsert k v).keys ↔ x = k ∨ x ∈ m.keys := by
  have hentries : ∀ l : List (κ × ν), x ∈ (upsertEntry k v l).map Prod.fst ↔
      x = k ∨ x ∈ l.map Prod.fst := by
    intro l
    induction l with
    | nil => simp [upsertEntry]
    | cons e l ih =>
      rcases lt_trichotomy e.1 k with h | h | h
      · rw [upsertEntry_of_lt h, List.map_cons, List.mem_cons]
      · rw [upsertEntry_of_eq h, List.map_cons, List.mem_cons, List.map_cons, List.mem_cons, h]
        tauto
      · rw [upsertEntry_of_gt h, List.map_cons, List.mem_cons, ih, List.map_cons, List.mem_cons]
        tauto
  exact hentries m.entries

lemma mem_keys_foldl_upsert {l : List (κ × ν)} {m : SortedMap κ ν} {x : κ} :
    x ∈ (l.foldl (fun m e => m.upsert e.1 e.2) m).keys ↔ x ∈ l.map Prod.fst ∨ x ∈ m.keys := by
  induction l generalizing m with
  | nil => simp
  | cons e l ih =>
    rw [List.foldl_cons, ih, mem_keys_upsert, List.map_cons, List.mem_cons]
    tauto

lemma keys_keep (m : SortedMap κ ν) (n : ℕ) : (m.keep n).keys = m.keys.take n := List.map_take

/-- What is kept is closed upwards. -/
lemma mem_keys_keep_of_lt {m : SortedMap κ ν} {n : ℕ} {x y : κ} (hx : x ∈ (m.keep n).keys)
    (hy : y ∈ m.keys) (h : x < y) : y ∈ (m.keep n).keys := by
  have hsorted := m.sorted_keys
  rw [keys_keep] at hx ⊢
  rw [← List.take_append_drop n m.keys, List.mem_append] at hy
  rw [← List.take_append_drop n m.keys, List.pairwise_append] at hsorted
  rcases hy with hy | hy
  · exact hy
  · exact absurd (hsorted.2.2 x hx y hy) h.asymm

/-- A key with fewer than `n` greater ones is kept. -/
lemma mem_keys_keep_of_few {m : SortedMap κ ν} {n : ℕ} {x : κ} (hx : x ∈ m.keys)
    (hfew : (m.keys.filter fun y => x < y).length < n) : x ∈ (m.keep n).keys := by
  have hsorted := m.sorted_keys
  rw [keys_keep]
  rw [← List.take_append_drop n m.keys, List.pairwise_append] at hsorted
  rw [← List.take_append_drop n m.keys, List.mem_append] at hx
  obtain hx | hx := hx
  · exact hx
  · -- everything kept is greater
    exfalso
    have hall : (m.keys.take n).filter (fun y => x < y) = m.keys.take n :=
      List.filter_eq_self.mpr fun y hy => decide_eq_true (hsorted.2.2 y hy x hx)
    have hsub : ((m.keys.take n).filter fun y => x < y).Sublist (m.keys.filter fun y => x < y) :=
      (List.take_sublist n m.keys).filter _
    have hle := hsub.length_le
    have hlong : n < m.keys.length := by
      by_contra hnot
      rw [List.drop_eq_nil_of_le (not_lt.mp hnot)] at hx
      exact List.not_mem_nil hx
    rw [hall, List.length_take] at hle
    omega

/-- A key that is kept has fewer than `n` greater ones. -/
lemma length_lt_of_mem_keys_keep {m : SortedMap κ ν} {n : ℕ} {x : κ} (hx : x ∈ (m.keep n).keys)
    {l : List κ} (hl : l.Nodup) (hgreater : ∀ y ∈ l, y ∈ m.keys ∧ x < y) : l.length < n := by
  have hsub : x :: l ⊆ (m.keep n).keys := by
    intro y hy
    rcases List.mem_cons.mp hy with rfl | hy
    · exact hx
    · exact mem_keys_keep_of_lt hx (hgreater y hy).1 (hgreater y hy).2
  have hnodup : (x :: l).Nodup := List.nodup_cons.mpr ⟨fun h => lt_irrefl x (hgreater x h).2, hl⟩
  have hle := (hnodup.subperm hsub).length_le
  rw [keys_keep, List.length_take, List.length_cons] at hle
  omega

/-! ## What is kept of many upserts -/

lemma mem_upsertEntry {k : κ} {v : ν} {l : List (κ × ν)} (hl : l.Pairwise fun a b => b.1 < a.1)
    {e : κ × ν} : e ∈ upsertEntry k v l ↔ e = (k, v) ∨ e ∈ l ∧ e.1 ≠ k := by
  induction l with
  | nil => simp [upsertEntry]
  | cons a l ih =>
    obtain ⟨hsmaller, hrest⟩ := List.pairwise_cons.mp hl
    rcases lt_trichotomy a.1 k with hlt | heq | hgt
    · rw [upsertEntry_of_lt hlt, List.mem_cons]
      refine or_congr_right (iff_self_and.mpr fun he => ?_)
      rcases List.mem_cons.mp he with rfl | he
      · exact hlt.ne
      · exact ((hsmaller e he).trans hlt).ne
    · rw [upsertEntry_of_eq heq, List.mem_cons]
      refine or_congr_right ⟨fun he => ⟨List.mem_cons_of_mem _ he, ?_⟩, fun ⟨he, hne⟩ => ?_⟩
      · rw [← heq]
        exact (hsmaller e he).ne
      · rcases List.mem_cons.mp he with rfl | he
        · exact absurd heq hne
        · exact he
    · rw [upsertEntry_of_gt hgt, List.mem_cons, ih hrest, List.mem_cons]
      constructor
      · rintro (rfl | rfl | ⟨he, hne⟩)
        · exact .inr ⟨.inl rfl, hgt.ne'⟩
        · exact .inl rfl
        · exact .inr ⟨.inr he, hne⟩
      · rintro (rfl | ⟨rfl | he, hne⟩)
        · exact .inr (.inl rfl)
        · exact .inl rfl
        · exact .inr (.inr ⟨he, hne⟩)

/-- What the entries are after an upsert. -/
theorem mem_entries_upsert {m : SortedMap κ ν} {k : κ} {v : ν} {e : κ × ν} :
    e ∈ (m.upsert k v).entries ↔ e = (k, v) ∨ e ∈ m.entries ∧ e.1 ≠ k := mem_upsertEntry m.sorted

/-- A key with at least `n` greater ones is not kept, whatever its value. -/
lemma keep_upsert_of_many {m : SortedMap κ ν} {n : ℕ} {k : κ} {v : ν} {l : List κ} (hl : l.Nodup)
    (hgreater : ∀ y ∈ l, y ∈ m.keys ∧ k < y) (hn : n ≤ l.length) : (m.upsert k v).keep n = m.keep n := by
  have hfront : ∀ a ∈ m.entries.take n, k < a.1 := by
    intro a ha
    by_contra hle
    have hkept : a.1 ∈ (m.keep n).keys := List.mem_map.mpr ⟨a, ha, rfl⟩
    have hfew : l.length < n := length_lt_of_mem_keys_keep hkept hl fun y hy =>
      ⟨(hgreater y hy).1, (not_lt.mp hle).trans_lt (hgreater y hy).2⟩
    omega
  have hlong : n ≤ m.entries.length := by
    have hsub : l ⊆ m.keys := fun y hy => (hgreater y hy).1
    have hle := (hl.subperm hsub).length_le
    rw [keys, List.length_map] at hle
    omega
  apply ext
  rw [entries_keep, entries_keep, entries_upsert]
  conv_lhs => rw [← List.take_append_drop n m.entries, upsertEntry_append hfront]
  exact List.take_left' (by rw [List.length_take]; omega)

/-- The upserts of a list. -/
def putAll (m : SortedMap κ ν) (l : List (κ × ν)) : SortedMap κ ν :=
  l.foldl (fun m e => m.upsert e.1 e.2) m

lemma putAll_append (m : SortedMap κ ν) (l l' : List (κ × ν)) :
    m.putAll (l ++ l') = (m.putAll l).putAll l' := List.foldl_append

/-- An upsert may come after those of other keys. -/
lemma putAll_upsert (m : SortedMap κ ν) {k : κ} {v : ν} {l : List (κ × ν)} (h : ∀ e ∈ l, k ≠ e.1) :
    (m.upsert k v).putAll l = (m.putAll l).upsert k v := by
  induction l generalizing m with
  | nil => rfl
  | cons e l ih =>
    show ((m.upsert k v).upsert e.1 e.2).putAll l = _
    rw [← upsert_comm m (h e List.mem_cons_self), ih _ fun a ha => h a (List.mem_cons_of_mem _ ha)]
    rfl

/-- Of ascending entries only the last ones count. -/
lemma keep_putAll_tail {n : ℕ} (cut : List (κ × ν)) {tail : List (κ × ν)}
    (hsorted : (cut ++ tail).Pairwise fun a b => a.1 < b.1) (hn : n ≤ tail.length)
    (m : SortedMap κ ν) : (m.putAll (cut ++ tail)).keep n = (m.putAll tail).keep n := by
  induction cut generalizing m with
  | nil => rfl
  | cons e cut ih =>
    rw [List.cons_append, List.pairwise_cons] at hsorted
    obtain ⟨hgreater, hrest⟩ := hsorted
    have htail : tail.Pairwise fun a b => a.1 < b.1 := hrest.sublist (List.sublist_append_right _ _)
    have hlater : ∀ a ∈ tail, e.1 < a.1 := fun a ha => hgreater a (List.mem_append_right _ ha)
    show ((m.upsert e.1 e.2).putAll (cut ++ tail)).keep n = _
    rw [ih hrest, putAll_upsert m fun a ha => (hlater a ha).ne]
    have hnodup : (tail.map Prod.fst).Nodup := (htail.map Prod.fst fun _ _ h => h).imp fun h => h.ne
    refine keep_upsert_of_many hnodup (fun y hy => ?_) (by rwa [List.length_map])
    obtain ⟨a, ha, rfl⟩ := List.mem_map.mp hy
    exact ⟨mem_keys_foldl_upsert.mpr (.inl hy), hlater a ha⟩

/-- With a bound the entries may be put in cut to what is kept. -/
lemma keep_putAll_congr {n : ℕ} {m m' : SortedMap κ ν} (h : m.keep n = m'.keep n) (l : List (κ × ν)) :
    (m.putAll l).keep n = (m'.putAll l).keep n := by
  rw [putAll, putAll, ← foldl_put_keep, ← foldl_put_keep, h]

end SortedMap

end PaperTrade.Runtime
