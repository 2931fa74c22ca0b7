import PaperTrade.Runtime.Window
import Mathlib.Data.List.DropRight

/-!
# The extreme of a sliding window

A deque of entries, each a value with the number of its arrival. A new entry evicts the entries at the back
that it dominates, and then the entries at the front that have left the window. `Extremal` is what the two
loops keep, and it puts the extreme of the window at the front.

The order is a relation `le`, total on the values that satisfy `S`; both directions of a window are
instances.
-/

namespace PaperTrade.Runtime

namespace MonotoneDeque

variable {α : Type} (le : α → α → Prop) [DecidableRel le]

/-- The entries at the back that `x` dominates go, and `x` comes. -/
def push (dq : List (ℕ × α)) (t : ℕ) (x : α) : List (ℕ × α) :=
  dq.rdropWhile (fun e => le e.2 x) ++ [(t, x)]

/-- The entries that have left the window of the last `d` arrivals go; `none` if there is no entry to look
at. -/
def expire (d t : ℕ) : List (ℕ × α) → Option (List (ℕ × α))
  | [] => none
  | e :: rest => if (e.1 : ℤ) ≤ t - d then expire d t rest else some (e :: rest)

/-- The order is transitive, and total on `S`. -/
structure Comparable (S : α → Prop) : Prop where
  trans : ∀ a b c, le a b → le b c → le a c
  total : ∀ a b, S a → S b → le a b ∨ le b a

/-- The deque over the values `xs`: the entries are values of the last `d`, with the extreme one first, and
every value of these is dominated by an entry that is not older. -/
structure Extremal (d : ℕ) (xs : List α) (dq : List (ℕ × α)) : Prop where
  read : ∀ e ∈ dq, xs[e.1]? = some e.2
  ascending : dq.Pairwise fun a b => a.1 < b.1
  inside : ∀ e ∈ dq, xs.length ≤ e.1 + d
  chain : dq.Pairwise fun a b => le b.2 a.2
  covers : ∀ i v, xs[i]? = some v → xs.length ≤ i + d → ∃ e ∈ dq, i ≤ e.1 ∧ le v e.2

/-! ## The loops -/

lemma expire_eq {d t : ℕ} {dq : List (ℕ × α)} (h : ∃ e ∈ dq, (t : ℤ) - d < e.1) :
    expire d t dq = some (dq.dropWhile fun e => (e.1 : ℤ) ≤ t - d) := by
  induction dq with
  | nil =>
    obtain ⟨e, he, -⟩ := h
    exact absurd he List.not_mem_nil
  | cons e rest ih =>
    unfold expire
    split
    · rename_i hold
      rw [List.dropWhile_cons_of_pos (by simpa using hold)]
      refine ih ?_
      obtain ⟨e', he', hin⟩ := h
      rcases List.mem_cons.mp he' with rfl | he'
      · omega
      · exact ⟨e', he', hin⟩
    · rename_i hnew
      rw [List.dropWhile_cons_of_neg (by simpa using hnew)]

lemma mem_dropWhile_of_not {β : Type} {p : β → Bool} {l : List β} {b : β} (hb : b ∈ l) (hp : p b = false) :
    b ∈ l.dropWhile p := by
  induction l with
  | nil => exact hb
  | cons a l ih =>
    by_cases ha : p a = true
    · rw [List.dropWhile_cons_of_pos ha]
      refine ih ((List.mem_cons.mp hb).resolve_left ?_)
      rintro rfl
      rw [hp] at ha
      cases ha
    · rwa [List.dropWhile_cons_of_neg ha]

/-- Of ascending entries exactly the old ones are dropped. -/
lemma not_old_of_mem_dropWhile {d t : ℕ} {dq : List (ℕ × α)} (h : dq.Pairwise fun a b => a.1 < b.1)
    {e : ℕ × α} (he : e ∈ dq.dropWhile fun e => (e.1 : ℤ) ≤ t - d) : (t : ℤ) - d < e.1 := by
  induction dq with
  | nil => exact absurd he List.not_mem_nil
  | cons a dq ih =>
    obtain ⟨ha, hrest⟩ := List.pairwise_cons.mp h
    by_cases hold : (a.1 : ℤ) ≤ t - d
    · rw [List.dropWhile_cons_of_pos (by simpa using hold)] at he
      exact ih hrest he
    · rw [List.dropWhile_cons_of_neg (by simpa using hold)] at he
      rcases List.mem_cons.mp he with rfl | he
      · omega
      · have hlt := ha e he
        omega

/-- Of a deque in order, what stays at the back dominates the new value. -/
lemma le_of_mem_rdropWhile {S : α → Prop} (hle : Comparable le S) {dq : List (ℕ × α)} {x : α} (hx : S x)
    (hS : ∀ e ∈ dq, S e.2) (hchain : dq.Pairwise fun a b => le b.2 a.2) {e : ℕ × α}
    (he : e ∈ dq.rdropWhile fun e => le e.2 x) : le x e.2 := by
  induction dq using List.reverseRecOn with
  | nil => exact absurd he List.not_mem_nil
  | append_singleton dq a ih =>
    obtain ⟨hfront, -, hlast⟩ := List.pairwise_append.mp hchain
    by_cases ha : le a.2 x
    · rw [List.rdropWhile_concat_pos _ _ _ (by simpa using ha)] at he
      exact ih (fun e he => hS e (List.mem_append_left _ he)) hfront he
    · rw [List.rdropWhile_concat_neg _ _ _ (by simpa using ha)] at he
      have hxa : le x a.2 := (hle.total _ _ hx (hS a (by simp))).resolve_right ha
      rcases List.mem_append.mp he with he | he
      · exact hle.trans _ _ _ hxa (hlast e he a (List.mem_singleton_self a))
      · rwa [List.mem_singleton.mp he]

/-! ## One arrival -/

variable {le} {S : α → Prop} {d : ℕ} {xs : List α} {dq : List (ℕ × α)}

lemma Extremal.lt_length (h : Extremal le d xs dq) {e : ℕ × α} (he : e ∈ dq) : e.1 < xs.length :=
  (List.getElem?_eq_some_iff.mp (h.read e he)).1

lemma Extremal.mem (h : Extremal le d xs dq) {e : ℕ × α} (he : e ∈ dq) : e.2 ∈ xs :=
  List.mem_of_getElem? (h.read e he)

/-- A new value keeps the deque extremal, and the loop at the front stops at its entry at the latest. -/
theorem Extremal.update (hle : Comparable le S) (hd : 0 < d) (h : Extremal le d xs dq) {x : α} (hx : S x)
    (hS : ∀ v ∈ xs, S v) :
    ∃ dq', expire d xs.length (push le dq xs.length x) = some dq' ∧ Extremal le d (xs ++ [x]) dq' := by
  have hself : le x x := (hle.total x x hx hx).elim id id
  have hkept : ∀ e ∈ dq.rdropWhile fun e => le e.2 x, e ∈ dq :=
    fun e he => (List.rdropWhile_prefix _ _).mem he
  have hread : ∀ e ∈ push le dq xs.length x, (xs ++ [x])[e.1]? = some e.2 := by
    intro e he
    rcases List.mem_append.mp he with he | he
    · rw [List.getElem?_append_left (h.lt_length (hkept e he))]
      exact h.read e (hkept e he)
    · rw [List.mem_singleton.mp he]
      exact List.getElem?_concat_length
  have hascending : (push le dq xs.length x).Pairwise fun a b => a.1 < b.1 := by
    refine List.pairwise_append.mpr ⟨?_, List.pairwise_singleton _ _, fun a ha b hb => ?_⟩
    · exact h.ascending.sublist (List.rdropWhile_prefix _ _).sublist
    · rw [List.mem_singleton.mp hb]
      exact h.lt_length (hkept a ha)
  have hchain : (push le dq xs.length x).Pairwise fun a b => le b.2 a.2 := by
    refine List.pairwise_append.mpr ⟨?_, List.pairwise_singleton _ _, fun a ha b hb => ?_⟩
    · exact h.chain.sublist (List.rdropWhile_prefix _ _).sublist
    · rw [List.mem_singleton.mp hb]
      exact le_of_mem_rdropWhile le hle hx (fun e he => hS _ (h.mem he)) h.chain ha
  -- what an evicted entry dominated, the new value dominates
  have hcovers : ∀ i v, (xs ++ [x])[i]? = some v → (xs ++ [x]).length ≤ i + d →
      ∃ e ∈ push le dq xs.length x, i ≤ e.1 ∧ le v e.2 := by
    intro i v hv hi
    rw [List.length_append, List.length_singleton] at hi
    have hnew : (xs.length, x) ∈ push le dq xs.length x :=
      List.mem_append_right _ (List.mem_singleton_self _)
    by_cases hold : i < xs.length
    · rw [List.getElem?_append_left hold] at hv
      obtain ⟨e, he, hie, hve⟩ := h.covers i v hv (by omega)
      by_cases hevicted : e ∈ dq.rdropWhile fun e => le e.2 x
      · exact ⟨e, List.mem_append_left _ hevicted, hie, hve⟩
      · have hsplit : e ∈ dq.rdropWhile (fun e => le e.2 x) ++ dq.rtakeWhile fun e => le e.2 x := by
          rwa [List.rdropWhile_append_rtakeWhile]
        have hex : le e.2 x := by
          simpa using List.mem_rtakeWhile_imp ((List.mem_append.mp hsplit).resolve_left hevicted)
        exact ⟨_, hnew, hold.le, hle.trans _ _ _ hve hex⟩
    · have hlt : i < (xs ++ [x]).length := (List.getElem?_eq_some_iff.mp hv).1
      rw [List.length_append, List.length_singleton] at hlt
      obtain rfl : i = xs.length := by omega
      rw [List.getElem?_concat_length] at hv
      cases hv
      exact ⟨_, hnew, le_rfl, hself⟩
  refine ⟨_, expire_eq ⟨(xs.length, x), List.mem_append_right _ (List.mem_singleton_self _), by simp; omega⟩,
    ?_⟩
  have hsub := List.dropWhile_sublist (l := push le dq xs.length x) fun e => (e.1 : ℤ) ≤ xs.length - d
  refine ⟨fun e he => hread e (hsub.mem he), hascending.sublist hsub, fun e he => ?_, hchain.sublist hsub,
    fun i v hv hi => ?_⟩
  · have hin := not_old_of_mem_dropWhile hascending he
    rw [List.length_append, List.length_singleton]
    omega
  · obtain ⟨e, he, hie, hve⟩ := hcovers i v hv hi
    rw [List.length_append, List.length_singleton] at hi
    exact ⟨e, mem_dropWhile_of_not he (by simp; omega), hie, hve⟩

lemma extremal_nil : Extremal le d ([] : List α) [] :=
  ⟨nofun, .nil, nofun, .nil, fun i v hv => nomatch hv⟩

/-! ## The front -/

/-- The entry at the front is the extreme of the last `d` values. -/
theorem Extremal.front (hle : Comparable le S) (hd : 0 < d) (h : Extremal le d xs dq) (hne : xs ≠ [])
    (hS : ∀ v ∈ xs, S v) :
    ∃ e rest, dq = e :: rest ∧ e.2 ∈ lastOf d xs ∧ ∀ v ∈ lastOf d xs, le v e.2 := by
  have hpos := List.length_pos_of_ne_nil hne
  obtain ⟨newest, hnewest, -⟩ :=
    h.covers (xs.length - 1) (xs[xs.length - 1]) (List.getElem?_eq_getElem (by omega)) (by omega)
  obtain ⟨e, rest, rfl⟩ := List.exists_cons_of_ne_nil (List.ne_nil_of_mem hnewest)
  refine ⟨e, rest, rfl, ?_, fun v hv => ?_⟩
  · have hinside := h.inside e List.mem_cons_self
    have hread := h.read e List.mem_cons_self
    refine List.mem_of_getElem? (i := e.1 - (xs.length - d)) ?_
    rw [lastOf, List.getElem?_drop, Nat.add_sub_cancel' (by omega)]
    exact hread
  · obtain ⟨k, hk⟩ := List.mem_iff_getElem?.mp hv
    rw [lastOf, List.getElem?_drop] at hk
    obtain ⟨e', he', -, hve'⟩ := h.covers _ v hk (by omega)
    rcases List.mem_cons.mp he' with rfl | he'
    · exact hve'
    · exact hle.trans _ _ _ hve' ((List.pairwise_cons.mp h.chain).1 e' he')

end MonotoneDeque

end PaperTrade.Runtime
