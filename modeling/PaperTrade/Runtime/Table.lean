import Mathlib.Data.List.Nodup
import Mathlib.Tactic

/-!
# Keyed tables

A `Table key` is a list of rows in insertion order in which no two rows share a key: an SQL
table with a primary key, or a Python `dict` when the rows are pairs and the key is the first
component. The key constraint is a field of the type, so every operation has to keep it, and
no later proof has to establish it again.

* `insert?` is `INSERT`: it fails on an existing key;
* `insertOrIgnore` is `INSERT OR IGNORE`;
* `modify` is `UPDATE … WHERE key = ?` with an update that leaves the key alone;
* `erase` is `DELETE … WHERE key = ?`, `filter` a `DELETE` by any other condition;
* `Dict.set` is `d[k] = v`: in place for an existing key, else at the end.
-/

namespace PaperTrade.Runtime

/-- Rows in insertion order, with no two of the same key. -/
structure Table {ρ κ : Type} (key : ρ → κ) where
  rows : List ρ
  nodup_keys : (rows.map key).Nodup

namespace Table

variable {ρ κ : Type} {key : ρ → κ}

@[ext] theorem ext {t u : Table key} (h : t.rows = u.rows) : t = u := by
  cases t; cases u; simpa using h

/-- The table with no rows. -/
def empty : Table key := ⟨[], by simp⟩

@[simp] theorem rows_empty : (empty : Table key).rows = [] := rfl

/-- Two rows of one key are the same row. -/
theorem eq_of_key_eq (t : Table key) {r s : ρ} (hr : r ∈ t.rows) (hs : s ∈ t.rows)
    (h : key r = key s) : r = s :=
  List.inj_on_of_nodup_map t.nodup_keys hr hs h

/-- `DELETE`: keep the rows that satisfy `p`. -/
def filter (t : Table key) (p : ρ → Bool) : Table key :=
  ⟨t.rows.filter p, t.nodup_keys.sublist (List.filter_sublist.map key)⟩

@[simp] theorem rows_filter (t : Table key) (p : ρ → Bool) :
    (t.filter p).rows = t.rows.filter p := rfl

variable [DecidableEq κ]

/-- The row with key `k`. -/
def find? (t : Table key) (k : κ) : Option ρ :=
  t.rows.find? fun r => key r = k

/-- Some row has key `k`. -/
def contains (t : Table key) (k : κ) : Bool :=
  t.rows.any fun r => key r = k

theorem contains_iff (t : Table key) (k : κ) : t.contains k = true ↔ ∃ r ∈ t.rows, key r = k := by
  simp [contains]

theorem not_contains_iff (t : Table key) (k : κ) :
    t.contains k = false ↔ ∀ r ∈ t.rows, key r ≠ k := by
  simp [contains]

theorem find?_some_iff (t : Table key) (k : κ) (r : ρ) :
    t.find? k = some r ↔ r ∈ t.rows ∧ key r = k := by
  constructor
  · intro h
    exact ⟨List.mem_of_find?_eq_some h, by simpa using List.find?_some h⟩
  · rintro ⟨hr, hk⟩
    cases h : t.find? k with
    | none =>
      have := (List.find?_eq_none.mp h) r hr
      simp [hk] at this
    | some s =>
      have hs : s ∈ t.rows ∧ key s = k := ⟨List.mem_of_find?_eq_some h, by simpa using List.find?_some h⟩
      rw [t.eq_of_key_eq hs.1 hr (hs.2.trans hk.symm)]

theorem find?_none_iff (t : Table key) (k : κ) : t.find? k = none ↔ ∀ r ∈ t.rows, key r ≠ k := by
  simp [find?, List.find?_eq_none]

/-- `INSERT`: `none` when the key is taken. -/
def insert? (t : Table key) (r : ρ) : Option (Table key) :=
  if h : t.contains (key r) = true then none
  else some ⟨t.rows ++ [r], by
    have hr : ∀ s ∈ t.rows, key s ≠ key r := (t.not_contains_iff _).mp (by simpa using h)
    rw [List.map_append, List.nodup_append]
    refine ⟨t.nodup_keys, by simp, ?_⟩
    intro a ha b hb
    obtain ⟨s, hs, rfl⟩ := List.mem_map.mp ha
    simp only [List.map_cons, List.map_nil, List.mem_singleton] at hb
    exact hb ▸ hr s hs⟩

/-- A table with one more row has the keys it had and that of the row. -/
theorem contains_of_append {t u : Table key} {r : ρ} (h : u.rows = t.rows ++ [r]) (k : κ) :
    u.contains k = (t.contains k || decide (key r = k)) := by
  simp [contains, h]

theorem insert?_of_contains {t : Table key} {r : ρ} (h : t.contains (key r) = true) :
    t.insert? r = none := by
  simp [insert?, h]

theorem insert?_some_iff (t u : Table key) (r : ρ) :
    t.insert? r = some u ↔ t.contains (key r) = false ∧ u.rows = t.rows ++ [r] := by
  unfold insert?
  split
  · rename_i h
    simp [h]
  · rename_i h
    simp only [Option.some.injEq]
    constructor
    · rintro rfl
      exact ⟨by simpa using h, rfl⟩
    · rintro ⟨_, hu⟩
      exact ext hu.symm

theorem insert?_eq_none_iff (t : Table key) (r : ρ) :
    t.insert? r = none ↔ t.contains (key r) = true := by
  unfold insert?
  split <;> simp_all

/-- `INSERT OR IGNORE`. -/
def insertOrIgnore (t : Table key) (r : ρ) : Table key := (t.insert? r).getD t

theorem insertOrIgnore_of_contains {t : Table key} {r : ρ} (h : t.contains (key r) = true) :
    t.insertOrIgnore r = t := by
  simp [insertOrIgnore, insert?_of_contains h]

theorem rows_insertOrIgnore_of_not_contains {t : Table key} {r : ρ}
    (h : t.contains (key r) = false) : (t.insertOrIgnore r).rows = t.rows ++ [r] := by
  simp [insertOrIgnore, insert?, h]

/-- `DELETE … WHERE key = k`. -/
def erase (t : Table key) (k : κ) : Table key := t.filter fun r => key r ≠ k

theorem mem_erase (t : Table key) (k : κ) (r : ρ) :
    r ∈ (t.erase k).rows ↔ r ∈ t.rows ∧ key r ≠ k := by
  simp [erase]

/-- A row and the others. -/
theorem perm_cons_erase (t : Table key) {r : ρ} (hr : r ∈ t.rows) :
    t.rows.Perm (r :: (t.erase (key r)).rows) := by
  refine (List.perm_ext_iff_of_nodup (List.Nodup.of_map _ t.nodup_keys) ?_).mpr fun s => ?_
  · refine List.nodup_cons.mpr ⟨fun h => ?_, List.Nodup.of_map _ (t.erase (key r)).nodup_keys⟩
    exact ((t.mem_erase _ _).mp h).2 rfl
  · rw [List.mem_cons, mem_erase]
    constructor
    · intro hs
      by_cases h : key s = key r
      · exact .inl (t.eq_of_key_eq hs hr h)
      · exact .inr ⟨hs, h⟩
    · rintro (rfl | ⟨hs, -⟩)
      · exact hr
      · exact hs

/-- `UPDATE … WHERE key = k`: `f` may not change the key. -/
def modify (t : Table key) (k : κ) (f : ρ → ρ) (hf : ∀ r, key (f r) = key r) : Table key :=
  ⟨t.rows.map fun r => if key r = k then f r else r, by
    have : (t.rows.map fun r => if key r = k then f r else r).map key = t.rows.map key := by
      rw [List.map_map]
      refine List.map_congr_left fun r _ => ?_
      simp only [Function.comp_apply]
      split
      · exact hf r
      · rfl
    rw [this]
    exact t.nodup_keys⟩

theorem mem_modify (t : Table key) (k : κ) (f : ρ → ρ) (hf : ∀ r, key (f r) = key r) (s : ρ) :
    s ∈ (t.modify k f hf).rows ↔
      (s ∈ t.rows ∧ key s ≠ k) ∨ ∃ r ∈ t.rows, key r = k ∧ s = f r := by
  simp only [modify, List.mem_map]
  constructor
  · rintro ⟨r, hr, rfl⟩
    by_cases h : key r = k
    · rw [if_pos h]
      exact .inr ⟨r, hr, h, rfl⟩
    · rw [if_neg h]
      exact .inl ⟨hr, h⟩
  · rintro (⟨hs, hk⟩ | ⟨r, hr, hk, rfl⟩)
    · exact ⟨s, hs, if_neg hk⟩
    · exact ⟨r, hr, if_pos hk⟩

/-- An updated row and the others. -/
theorem perm_modify (t : Table key) (f : ρ → ρ) (hf : ∀ r, key (f r) = key r) {r : ρ}
    (hr : r ∈ t.rows) :
    (t.modify (key r) f hf).rows.Perm (f r :: (t.erase (key r)).rows) := by
  have hmem : f r ∈ (t.modify (key r) f hf).rows :=
    (t.mem_modify _ f hf _).mpr (.inr ⟨r, hr, rfl, rfl⟩)
  have hrest : ((t.modify (key r) f hf).erase (key (f r))).rows.Perm (t.erase (key r)).rows := by
    refine (List.perm_ext_iff_of_nodup (List.Nodup.of_map _ (Table.nodup_keys _))
      (List.Nodup.of_map _ (Table.nodup_keys _))).mpr fun s => ?_
    rw [mem_erase, mem_erase, mem_modify, hf]
    constructor
    · rintro ⟨⟨hs, hne⟩ | ⟨q, -, hq, rfl⟩, hne⟩
      · exact ⟨hs, hne⟩
      · exact absurd ((hf q).trans hq) hne
    · exact fun h => ⟨.inl h, h.2⟩
  exact (perm_cons_erase _ hmem).trans (hrest.cons _)

theorem find?_erase (t : Table key) (k k' : κ) :
    (t.erase k).find? k' = if k' = k then none else t.find? k' := by
  by_cases h : k' = k
  · rw [if_pos h, find?_none_iff]
    intro r hr
    exact h ▸ ((t.mem_erase k r).mp hr).2
  · rw [if_neg h]
    apply Option.ext
    intro r
    rw [find?_some_iff, find?_some_iff, mem_erase]
    constructor
    · exact fun hr => ⟨hr.1.1, hr.2⟩
    · exact fun hr => ⟨⟨hr.1, hr.2 ▸ h⟩, hr.2⟩

theorem find?_modify (t : Table key) (k : κ) (f : ρ → ρ) (hf : ∀ r, key (f r) = key r) (k' : κ) :
    (t.modify k f hf).find? k' = if k' = k then (t.find? k).map f else t.find? k' := by
  apply Option.ext
  intro s
  rw [find?_some_iff, mem_modify]
  by_cases h : k' = k
  · subst h
    simp only [if_true, Option.map_eq_some_iff, find?_some_iff]
    constructor
    · rintro ⟨⟨_, hne⟩ | ⟨r, hr, hk, rfl⟩, hs⟩
      · exact absurd hs hne
      · exact ⟨r, ⟨hr, hk⟩, rfl⟩
    · rintro ⟨r, ⟨hr, hk⟩, rfl⟩
      exact ⟨.inr ⟨r, hr, hk, rfl⟩, (hf r).trans hk⟩
  · rw [if_neg h, find?_some_iff]
    constructor
    · rintro ⟨⟨hs, _⟩ | ⟨r, _, hk, rfl⟩, hk'⟩
      · exact ⟨hs, hk'⟩
      · exact absurd ((hf r).symm.trans hk' |>.symm.trans hk) h
    · rintro ⟨hs, hk'⟩
      exact ⟨.inl ⟨hs, hk' ▸ h⟩, hk'⟩

end Table

/-! ## Dictionaries -/

/-- A Python `dict`: the rows are `(key, value)` pairs in insertion order. -/
abbrev Dict (κ α : Type) : Type := Table (ρ := κ × α) (κ := κ) Prod.fst

namespace Dict

variable {κ α : Type} [DecidableEq κ]

/-- `d.get(k)`. -/
def get? (d : Dict κ α) (k : κ) : Option α := (d.find? k).map Prod.snd

theorem get?_some_iff (d : Dict κ α) (k : κ) (v : α) : d.get? k = some v ↔ (k, v) ∈ d.rows := by
  simp only [get?, Option.map_eq_some_iff]
  constructor
  · rintro ⟨⟨k', v'⟩, h, rfl⟩
    obtain ⟨hm, rfl⟩ := (d.find?_some_iff _ _).mp h
    exact hm
  · intro h
    exact ⟨(k, v), (d.find?_some_iff _ _).mpr ⟨h, rfl⟩, rfl⟩

theorem get?_none_iff (d : Dict κ α) (k : κ) : d.get? k = none ↔ ∀ v, (k, v) ∉ d.rows := by
  rw [← not_iff_not, ← ne_eq, Option.ne_none_iff_exists']
  simp [get?_some_iff]

/-- `d[k] = v`. -/
def set (d : Dict κ α) (k : κ) (v : α) : Dict κ α :=
  if d.contains k then d.modify k (fun p => (p.1, v)) (fun _ => rfl) else d.insertOrIgnore (k, v)

theorem mem_set (d : Dict κ α) (k : κ) (v : α) (p : κ × α) :
    p ∈ (d.set k v).rows ↔ p = (k, v) ∨ (p ∈ d.rows ∧ p.1 ≠ k) := by
  unfold set
  by_cases h : d.contains k = true
  · rw [if_pos h, Table.mem_modify]
    obtain ⟨r, hr, hk⟩ := (d.contains_iff k).mp h
    constructor
    · rintro (⟨hp, hne⟩ | ⟨s, _, rfl, rfl⟩)
      · exact .inr ⟨hp, hne⟩
      · exact .inl rfl
    · rintro (rfl | hp)
      · exact .inr ⟨r, hr, hk, by rw [hk]⟩
      · exact .inl hp
  · have h' : d.contains k = false := by simpa using h
    rw [if_neg h, Table.rows_insertOrIgnore_of_not_contains (r := (k, v)) h']
    have hne := (d.not_contains_iff k).mp h'
    simp only [List.mem_append, List.mem_singleton]
    constructor
    · rintro (hp | rfl)
      · exact .inr ⟨hp, hne p hp⟩
      · exact .inl rfl
    · rintro (rfl | hp)
      · exact .inr rfl
      · exact .inl hp.1

theorem get?_set (d : Dict κ α) (k k' : κ) (v : α) :
    (d.set k v).get? k' = if k' = k then some v else d.get? k' := by
  by_cases h : k' = k
  · subst h
    rw [if_pos rfl, get?_some_iff, mem_set]
    exact .inl rfl
  · rw [if_neg h]
    apply Option.ext
    intro w
    rw [get?_some_iff, get?_some_iff, mem_set]
    constructor
    · rintro (hp | hp)
      · exact absurd (Prod.mk.inj hp).1 h
      · exact hp.1
    · exact fun hp => .inr ⟨hp, h⟩

theorem contains_set (d : Dict κ α) (k k' : κ) (v : α) :
    (d.set k v).contains k' = true ↔ k' = k ∨ d.contains k' = true := by
  rw [Table.contains_iff, Table.contains_iff]
  constructor
  · rintro ⟨p, hp, rfl⟩
    rcases (mem_set d k v p).mp hp with rfl | ⟨hp, -⟩
    · exact .inl rfl
    · exact .inr ⟨p, hp, rfl⟩
  · intro h
    by_cases hk : k' = k
    · exact ⟨(k, v), (mem_set d k v _).mpr (.inl rfl), hk.symm⟩
    · obtain ⟨p, hp, rfl⟩ := h.resolve_left hk
      exact ⟨p, (mem_set d k v p).mpr (.inr ⟨hp, hk⟩), rfl⟩

/-- A new key comes last. -/
theorem rows_set_of_not_contains {d : Dict κ α} {k : κ} (h : d.contains k = false) (v : α) :
    (d.set k v).rows = d.rows ++ [(k, v)] := by
  unfold set
  rw [if_neg (by rw [h]; exact Bool.false_ne_true)]
  exact Table.rows_insertOrIgnore_of_not_contains (r := (k, v)) h

/-- `{k: v for r in rows if …}`: `f` is the entry of a row, if it has one. -/
def collect {ρ : Type} (f : ρ → Option (κ × α)) (rows : List ρ) : Dict κ α :=
  rows.foldl (fun d r => ((f r).map fun e => d.set e.1 e.2).getD d) .empty

section Collect

variable {ρ : Type} (f : ρ → Option (κ × α))

private lemma mem_foldl_collect (rows : List ρ) (d : Dict κ α) {e : κ × α}
    (h : e ∈ (rows.foldl (fun d r => ((f r).map fun e => d.set e.1 e.2).getD d) d).rows) :
    e ∈ d.rows ∨ ∃ r ∈ rows, f r = some e := by
  induction rows generalizing d with
  | nil => exact .inl h
  | cons r rows ih =>
    rcases ih _ h with hd | ⟨r', hr', hf⟩
    · dsimp only at hd
      cases hf : f r with
      | none =>
        rw [hf] at hd
        exact .inl hd
      | some e' =>
        rw [hf] at hd
        rcases (mem_set d _ _ e).mp hd with rfl | ⟨hd, -⟩
        · exact .inr ⟨r, List.mem_cons_self, hf⟩
        · exact .inl hd
    · exact .inr ⟨r', List.mem_cons_of_mem _ hr', hf⟩

/-- An entry is that of a row. -/
theorem mem_collect {rows : List ρ} {e : κ × α} (h : e ∈ (collect f rows).rows) :
    ∃ r ∈ rows, f r = some e := by
  rcases mem_foldl_collect f rows .empty h with h | h
  · cases h
  · exact h

private lemma contains_foldl_collect (rows : List ρ) (d : Dict κ α) (k : κ) :
    (rows.foldl (fun d r => ((f r).map fun e => d.set e.1 e.2).getD d) d).contains k = true ↔
      d.contains k = true ∨ ∃ r ∈ rows, ∃ v, f r = some (k, v) := by
  induction rows generalizing d with
  | nil => simp
  | cons r rows ih =>
    rw [List.foldl_cons, ih]
    cases hf : f r with
    | none => simp [hf]
    | some e =>
      obtain ⟨k', v'⟩ := e
      rw [Option.map_some, Option.getD_some, contains_set]
      simp only [List.mem_cons, exists_eq_or_imp, hf, Option.some.injEq, Prod.mk.injEq,
        exists_and_left, exists_eq', and_true]
      rw [or_comm (a := k = k'), or_assoc, eq_comm (a := k)]

/-- A key is there when a row has an entry with it. -/
theorem contains_collect (rows : List ρ) (k : κ) :
    (collect f rows).contains k = true ↔ ∃ r ∈ rows, ∃ v, f r = some (k, v) := by
  unfold collect
  rw [contains_foldl_collect]
  simp [Table.contains, Table.empty]

end Collect

/-- `dict(sorted(d.items()))`, for keys that are strings. -/
def sorted {α : Type} (d : Dict String α) : Dict String α where
  rows := d.rows.insertionSort fun e f => e.1 ≤ f.1
  nodup_keys := ((List.perm_insertionSort _ _).map _).nodup_iff.mpr d.nodup_keys

lemma perm_sorted {α : Type} (d : Dict String α) : d.sorted.rows.Perm d.rows :=
  List.perm_insertionSort _ _

/-- The keys of `d`, in order. -/
def keys (d : Dict κ α) : List κ := d.rows.map Prod.fst

omit [DecidableEq κ] in
theorem nodup_keys (d : Dict κ α) : d.keys.Nodup := Table.nodup_keys d

end Dict

end PaperTrade.Runtime
