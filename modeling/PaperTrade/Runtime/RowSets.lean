import PaperTrade.Runtime.Table

/-!
# Tables as sets of rows

`SELECT … EXCEPT SELECT …` compares two tables as sets of rows, whatever order they stand in.
`insertAll?` is `INSERT … SELECT`: all rows or none. What it leaves has the old rows and the new ones,
and it goes through exactly when there is such a table (`insertAll?_some_iff`); rows that some other
table holds together never collide (`exists_insertAll?`).

A `transaction` ends in the state its body leaves, or in the one it began with.
-/

namespace PaperTrade.Runtime

namespace Table

variable {ρ κ : Type} {key : ρ → κ}

/-- The same rows. -/
def SameRows (t u : Table key) : Prop := ∀ r, r ∈ t.rows ↔ r ∈ u.rows

namespace SameRows

variable {t u v : Table key}

lemma refl (t : Table key) : t.SameRows t := fun _ => Iff.rfl

lemma symm (h : t.SameRows u) : u.SameRows t := fun r => (h r).symm

lemma trans (h : t.SameRows u) (h' : u.SameRows v) : t.SameRows v := fun r => (h r).trans (h' r)

/-- They are the same up to their order. -/
lemma perm (h : t.SameRows u) : t.rows.Perm u.rows :=
  (List.perm_ext_iff_of_nodup (List.Nodup.of_map _ t.nodup_keys)
    (List.Nodup.of_map _ u.nodup_keys)).mpr h

end SameRows

section Except

variable [DecidableEq ρ]

/-- `SELECT … FROM t EXCEPT SELECT … FROM u`. -/
def except (t u : Table key) : List ρ := t.rows.filter fun r => r ∉ u.rows

@[simp] lemma mem_except {t u : Table key} {r : ρ} : r ∈ t.except u ↔ r ∈ t.rows ∧ r ∉ u.rows := by
  rw [except, List.mem_filter, decide_eq_true_iff]

/-- Nothing is left of a table that the other contains. -/
lemma except_eq_nil_iff {t u : Table key} : t.except u = [] ↔ ∀ r ∈ t.rows, r ∈ u.rows := by
  simp only [List.eq_nil_iff_forall_not_mem, mem_except, not_and, not_not]

lemma nodup_except (t u : Table key) : (t.except u).Nodup :=
  (List.Nodup.of_map _ t.nodup_keys).filter _

end Except

section InsertAll

variable [DecidableEq κ]

/-- `INSERT INTO t SELECT …`: `none` when a key is taken. -/
def insertAll? (t : Table key) : List ρ → Option (Table key)
  | [] => some t
  | r :: rs => (t.insert? r).bind fun t => t.insertAll? rs

/-- The rows that are inserted come behind the others, and there is a table of both. -/
theorem insertAll?_some_iff (t u : Table key) (rs : List ρ) :
    t.insertAll? rs = some u ↔ u.rows = t.rows ++ rs := by
  induction rs generalizing t with
  | nil =>
    rw [insertAll?, Option.some.injEq, List.append_nil]
    exact ⟨fun h => by rw [h], fun h => ext h.symm⟩
  | cons r rs ih =>
    rw [insertAll?, Option.bind_eq_some_iff]
    constructor
    · rintro ⟨t', ht', hu⟩
      rw [(ih t').mp hu, ((t.insert?_some_iff t' r).mp ht').2, List.append_assoc,
        List.singleton_append]
    · intro hu
      have hrow : u.rows = (t.rows ++ [r]) ++ rs := by
        rw [hu, List.append_assoc, List.singleton_append]
      have hkeys : ((t.rows ++ [r]).map key).Nodup := by
        have hall := u.nodup_keys
        rw [hrow, List.map_append] at hall
        exact hall.of_append_left
      have hfree : t.contains (key r) = false := by
        rw [not_contains_iff]
        intro s hs heq
        rw [List.map_append, List.nodup_append] at hkeys
        exact hkeys.2.2 _ (List.mem_map.mpr ⟨s, hs, rfl⟩) _ (List.mem_map.mpr
          ⟨r, List.mem_singleton_self r, rfl⟩) heq
      refine ⟨⟨t.rows ++ [r], hkeys⟩, (t.insert?_some_iff _ r).mpr ⟨hfree, rfl⟩, ?_⟩
      exact (ih _).mpr hrow

/-- Rows of one table can be inserted one behind the other. -/
theorem exists_insertAll? {t u : Table key} {rs : List ρ} (ht : ∀ r ∈ t.rows, r ∈ u.rows)
    (hrs : ∀ r ∈ rs, r ∈ u.rows) (hnodup : rs.Nodup) (hnew : ∀ r ∈ rs, r ∉ t.rows) :
    ∃ t', t.insertAll? rs = some t' := by
  have hrows : (t.rows ++ rs).Nodup := by
    rw [List.nodup_append]
    refine ⟨List.Nodup.of_map _ t.nodup_keys, hnodup, ?_⟩
    intro r hr s hs heq
    exact hnew s hs (heq ▸ hr)
  have hkeys : ((t.rows ++ rs).map key).Nodup := by
    refine hrows.map_on fun r hr s hs heq => u.eq_of_key_eq ?_ ?_ heq
    · exact (List.mem_append.mp hr).elim (ht r) (hrs r)
    · exact (List.mem_append.mp hs).elim (ht s) (hrs s)
  exact ⟨⟨t.rows ++ rs, hkeys⟩, (t.insertAll?_some_iff _ rs).mpr rfl⟩

end InsertAll

/-- `UPDATE … WHERE …`: `f` may not change the key. -/
def update (t : Table key) (f : ρ → ρ) (hf : ∀ r, key (f r) = key r) : Table key :=
  ⟨t.rows.map f, by
    have hkeys : (t.rows.map f).map key = t.rows.map key := by
      rw [List.map_map]
      exact List.map_congr_left fun r _ => hf r
    rw [hkeys]
    exact t.nodup_keys⟩

lemma mem_update {t : Table key} {f : ρ → ρ} (hf : ∀ r, key (f r) = key r) {s : ρ} :
    s ∈ (t.update f hf).rows ↔ ∃ r ∈ t.rows, f r = s := List.mem_map

end Table

/-! ## Transactions -/

/-- `with conn:`, the state that is left and what was raised. -/
def transaction {δ ε : Type} (db : δ) (body : Except ε δ) : δ × Option ε :=
  match body with
  | .ok db' => (db', none)
  | .error e => (db, some e)

section Transaction

variable {δ ε : Type} {db : δ} {body : Except ε δ}

/-- A transaction that raises has changed nothing. -/
lemma transaction_raised (h : (transaction db body).2 ≠ none) : (transaction db body).1 = db := by
  cases body with
  | ok db' => exact absurd rfl h
  | error e => rfl

/-- It returns when its body does. -/
lemma transaction_returned_iff {db' : δ} :
    transaction db body = (db', none) ↔ body = .ok db' := by
  cases body with
  | ok db'' => simp [transaction]
  | error e => simp [transaction]

end Transaction

end PaperTrade.Runtime
