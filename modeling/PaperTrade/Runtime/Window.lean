import Mathlib.Algebra.BigOperators.Group.List.Basic
import Mathlib.Tactic

/-!
# The last values of a list

`lastOf d xs` is the window of the last `d` values of `xs`, or all of them if there are fewer. A new value
either extends the window or pushes out its oldest value.

A transformer of lists is causal when a prefix of its result is the result of the prefix. Windows, shifts,
element-wise operations and loops that carry a state are, and causal transformers compose. What a causal
transformer has computed of the last of the timed rows of a time depends on the rows of the time alone
(`asof_zip`).
-/

namespace PaperTrade.Runtime

variable {α β : Type} {d : ℕ} {xs : List α}

/-- The last `d` values. -/
def lastOf (d : ℕ) (xs : List α) : List α := xs.drop (xs.length - d)

@[simp] lemma length_lastOf (d : ℕ) (xs : List α) : (lastOf d xs).length = min d xs.length := by
  rw [lastOf, List.length_drop]
  omega

lemma lastOf_of_length_le (h : xs.length ≤ d) : lastOf d xs = xs := by
  rw [lastOf, Nat.sub_eq_zero_of_le h, List.drop_zero]

@[simp] lemma lastOf_nil (d : ℕ) : lastOf d ([] : List α) = [] := lastOf_of_length_le (Nat.zero_le d)

lemma lastOf_map (f : α → β) (d : ℕ) (xs : List α) : lastOf d (xs.map f) = (lastOf d xs).map f := by
  rw [lastOf, lastOf, List.length_map, List.map_drop]

/-- The window of a prefix of the window. -/
lemma lastOf_lastOf {e : ℕ} (h : d ≤ e) (xs : List α) : lastOf d (lastOf e xs) = lastOf d xs := by
  simp only [lastOf, List.length_drop, List.drop_drop]
  congr 1
  omega

/-- The window of a longer list does not reach its first value. -/
lemma lastOf_cons_of_le (h : d ≤ xs.length) (x : α) : lastOf d (x :: xs) = lastOf d xs := by
  have hskip : (x :: xs).length - d = xs.length - d + 1 := by
    rw [List.length_cons]
    omega
  rw [lastOf, hskip, List.drop_succ_cons, lastOf]

/-- A window that is not full takes the new value. -/
lemma lastOf_concat_of_lt (h : xs.length < d) (x : α) : lastOf d (xs ++ [x]) = lastOf d xs ++ [x] := by
  rw [lastOf_of_length_le h.le, lastOf_of_length_le]
  rw [List.length_append, List.length_singleton]
  omega

/-- A full window starts with the value that the next one pushes out. -/
lemma lastOf_of_le (hd : 0 < d) (h : d ≤ xs.length) :
    lastOf d xs = xs[xs.length - d] :: (lastOf d xs).tail := by
  have hlt : xs.length - d < xs.length := by omega
  rw [lastOf, List.drop_eq_getElem_cons hlt, List.tail_cons]

/-- A full window moves on by one. -/
lemma lastOf_concat_of_le (hd : 0 < d) (h : d ≤ xs.length) (x : α) :
    lastOf d (xs ++ [x]) = (lastOf d xs).tail ++ [x] := by
  have hskip : (xs ++ [x]).length - d = xs.length - d + 1 := by
    rw [List.length_append, List.length_singleton]
    omega
  rw [lastOf, lastOf, hskip, List.tail_drop, List.drop_append_of_le_length (by omega)]

/-- The window as the one of the value before, with one value more. -/
lemma tail_concat_lastOf (hd : 0 < d) (h : d ≤ xs.length) (x : α) :
    (lastOf d xs ++ [x]).tail = lastOf d (xs ++ [x]) := by
  rw [lastOf_concat_of_le hd h]
  exact List.tail_append_of_ne_nil (by
    rw [← List.length_pos_iff, length_lastOf]
    omega)

/-- A window takes a value, and lets its oldest one go if it has become too long. -/
lemma trim_lastOf (hd : 0 < d) (xs : List α) (x : α) :
    (if d < (lastOf d xs ++ [x]).length then (lastOf d xs ++ [x]).tail else lastOf d xs ++ [x]) =
      lastOf d (xs ++ [x]) := by
  by_cases h : d ≤ xs.length
  · rw [if_pos (by simp [h]), tail_concat_lastOf hd h]
  · rw [if_neg (by simp; omega), lastOf_concat_of_lt (not_le.mp h)]

section Sum

variable {K : Type} [AddCommGroup K] {ys : List K}

/-- The sum of a window that moves on. -/
lemma sum_lastOf_concat (hd : 0 < d) (h : d ≤ ys.length) (y : K) :
    (lastOf d (ys ++ [y])).sum = (lastOf d ys).sum - ys[ys.length - d] + y := by
  have hcons := congrArg List.sum (lastOf_of_le hd h)
  rw [List.sum_cons] at hcons
  rw [lastOf_concat_of_le hd h, List.sum_append, List.sum_singleton, hcons, add_sub_cancel_left]

lemma sum_lastOf_concat_of_lt (h : ys.length < d) (y : K) :
    (lastOf d (ys ++ [y])).sum = (lastOf d ys).sum + y := by
  rw [lastOf_concat_of_lt h, List.sum_append, List.sum_singleton]

end Sum

/-! ## Transformers without a look ahead -/

section Causal

variable {γ δ σ : Type}

/-- There is one output for each input, and a prefix of the outputs is the output of the prefix. -/
structure Causal (f : List α → List β) : Prop where
  length : ∀ l, (f l).length = l.length
  take : ∀ (l : List α) (n : ℕ), f (l.take n) = (f l).take n

/-- What the first `i + 1` elements give, for every index. -/
def eachPrefix (F : List α → β) (l : List α) : List β :=
  (List.range l.length).map fun i => F (l.take (i + 1))

/-- The states of a loop, each behind its element. -/
def states (step : σ → α → σ) : σ → List α → List σ
  | _, [] => []
  | s, x :: l => step s x :: states step (step s x) l

/-- The element `k` before, or `d` where there is none. -/
def shiftBy (k : ℕ) (d : α) : List α → List α :=
  eachPrefix fun p => if k < p.length then p.getD (p.length - 1 - k) d else d

/-! ## Causal transformers -/

lemma causal_map (f : α → β) : Causal (List.map f) := ⟨fun _ => List.length_map _, fun _ _ => List.map_take⟩

lemma causal_eachPrefix (F : List α → β) : Causal (eachPrefix F) where
  length l := by rw [eachPrefix, List.length_map, List.length_range]
  take l n := by
    unfold eachPrefix
    rw [← List.map_take, List.take_range, List.length_take]
    apply List.map_congr_left
    intro i hi
    have hlt : i + 1 ≤ n := by
      have hmin := List.mem_range.mp hi
      omega
    rw [List.take_take, min_eq_left hlt]

lemma length_states (step : σ → α → σ) (s : σ) (l : List α) : (states step s l).length = l.length := by
  induction l generalizing s with
  | nil => rfl
  | cons x l ih => exact congrArg (· + 1) (ih (step s x))

lemma causal_states (step : σ → α → σ) (s : σ) : Causal (states step s) where
  length := length_states step s
  take l := by
    induction l generalizing s with
    | nil => intro n; simp [states]
    | cons x l ih =>
      intro n
      cases n with
      | zero => rfl
      | succ n =>
        show step s x :: states step (step s x) (l.take n) = step s x :: (states step (step s x) l).take n
        rw [ih]

lemma causal_shiftBy (k : ℕ) (d : α) : Causal (shiftBy k d) := causal_eachPrefix _

lemma Causal.comp {f : List β → List γ} {g : List α → List β} (hf : Causal f) (hg : Causal g) :
    Causal (fun l => f (g l)) where
  length l := (hf.length _).trans (hg.length l)
  take l n := by
    show f (g (l.take n)) = (f (g l)).take n
    rw [hg.take, hf.take]

lemma Causal.zipWith {f : List α → List β} {g : List α → List γ} (op : β → γ → δ) (hf : Causal f)
    (hg : Causal g) : Causal (fun l => List.zipWith op (f l) (g l)) where
  length l := by rw [List.length_zipWith, hf.length, hg.length, min_self]
  take l n := by
    show List.zipWith op (f (l.take n)) (g (l.take n)) = (List.zipWith op (f l) (g l)).take n
    rw [hf.take, hg.take, List.take_zipWith]

/-- An element of the result depends on the prefix that ends at it. -/
lemma Causal.getElem?_congr {f : List α → List β} (hf : Causal f) {l l' : List α} {n i : ℕ}
    (h : l.take n = l'.take n) (hi : i < n) : (f l)[i]? = (f l')[i]? := by
  have htake := congrArg (fun p => (f p)[i]?) h
  rwa [hf.take, hf.take, List.getElem?_take_of_lt hi, List.getElem?_take_of_lt hi] at htake

/-! ## Timed rows -/

/-- The times of the rows ascend. -/
def Ascending (rows : List (ℤ × α)) : Prop := rows.Pairwise fun a b => a.1 < b.1

/-- The rows that are not later than a time. -/
def rowsOf (t : ℤ) (rows : List (ℤ × α)) : List (ℤ × α) := rows.filter fun r => r.1 ≤ t

/-- What the last row of a time has. -/
def asof (t : ℤ) (rows : List (ℤ × α)) : Option α := (rowsOf t rows).getLast?.map Prod.snd

section Rows

variable {rows rows' : List (ℤ × α)} {t : ℤ}

/-- The rows of a time are a prefix. -/
lemma rowsOf_eq_take (h : Ascending rows) (t : ℤ) : rowsOf t rows = rows.take (rowsOf t rows).length := by
  induction rows with
  | nil => rfl
  | cons r rows ih =>
    obtain ⟨hfirst, hrest⟩ := List.pairwise_cons.mp h
    by_cases hr : r.1 ≤ t
    · have hcons : rowsOf t (r :: rows) = r :: rowsOf t rows := List.filter_cons_of_pos (by simpa using hr)
      rw [hcons, List.length_cons, List.take_succ_cons, ← ih hrest]
    · have hnil : rowsOf t (r :: rows) = [] := by
        apply List.filter_eq_nil_iff.mpr
        intro a ha hat
        have hle : a.1 ≤ t := of_decide_eq_true hat
        rcases List.mem_cons.mp ha with rfl | ha
        · exact hr hle
        · have hlt := hfirst a ha
          omega
      rw [hnil]
      rfl

/-- What is computed of the rows has their times. -/
lemma map_fst_zip_causal {f : List α → List β} (hf : Causal f) (rows : List (ℤ × α)) :
    (((rows.map Prod.fst).zip (f (rows.map Prod.snd))).map Prod.fst) = rows.map Prod.fst := by
  apply List.map_fst_zip
  rw [hf.length, List.length_map, List.length_map]

lemma ascending_zip {f : List α → List β} (hf : Causal f) (h : Ascending rows) :
    Ascending ((rows.map Prod.fst).zip (f (rows.map Prod.snd))) := by
  have htimes : (((rows.map Prod.fst).zip (f (rows.map Prod.snd))).map Prod.fst).Pairwise (· < ·) := by
    rw [map_fst_zip_causal hf, List.pairwise_map]
    exact h
  rwa [List.pairwise_map] at htimes

lemma length_rowsOf (rows : List (ℤ × α)) (t : ℤ) :
    (rowsOf t rows).length = ((rows.map Prod.fst).filter fun u => u ≤ t).length := by
  rw [rowsOf, List.filter_map, List.length_map]
  rfl

/-- The rows of a time are those before an index. -/
lemma rowsOf_zip {f : List α → List β} (hf : Causal f) (h : Ascending rows) (t : ℤ) :
    rowsOf t ((rows.map Prod.fst).zip (f (rows.map Prod.snd))) =
      ((rows.map Prod.fst).zip (f (rows.map Prod.snd))).take (rowsOf t rows).length := by
  have hlength : (rowsOf t ((rows.map Prod.fst).zip (f (rows.map Prod.snd)))).length =
      (rowsOf t rows).length := by
    rw [length_rowsOf, length_rowsOf, map_fst_zip_causal hf]
  rw [← hlength]
  exact rowsOf_eq_take (ascending_zip hf h) t

/-- What a causal transformer has computed by a time comes from the rows of the time. -/
theorem asof_zip {f : List α → List β} (hf : Causal f) (h : Ascending rows) (t : ℤ) :
    asof t ((rows.map Prod.fst).zip (f (rows.map Prod.snd))) =
      (((rowsOf t rows).map Prod.fst).zip (f ((rowsOf t rows).map Prod.snd))).getLast?.map Prod.snd := by
  have htake := rowsOf_eq_take h t
  unfold asof
  rw [rowsOf_zip hf h, List.zip, List.take_zipWith, ← hf.take, ← List.map_take, ← List.map_take, ← htake]

/-- So it is the same for rows that agree up to the time. -/
theorem asof_congr {f : List α → List β} (hf : Causal f) (h : Ascending rows) (h' : Ascending rows')
    (hrows : rowsOf t rows = rowsOf t rows') :
    asof t ((rows.map Prod.fst).zip (f (rows.map Prod.snd))) =
      asof t ((rows'.map Prod.fst).zip (f (rows'.map Prod.snd))) := by
  rw [asof_zip hf h, asof_zip hf h', hrows]

end Rows

end Causal

end PaperTrade.Runtime
