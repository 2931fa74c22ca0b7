import PaperTrade.Runtime.Float
import PaperTrade.Runtime.MonotoneDeque

/-!
# `RollingExtreme`

The maximum or minimum of the last `d` numbers of a stream. NaNs are skipped: they do not count as numbers of
the window.
-/

namespace PaperTrade.Indicators

open PaperTrade.Runtime MonotoneDeque

/-- `RollingExtreme`: the entries of `dq` are pairs of an index and a value. -/
structure RollingExtreme where
  d : ℕ
  isMax : Bool := true
  dq : List (ℕ × PyFloat) := []
  t : ℕ := 0

namespace RollingExtreme

/-- The entry at the back goes if its value compares so with the new one. -/
def Evicts (isMax : Bool) (back x : PyFloat) : Prop := if isMax then back ≤ x else x ≤ back

instance (isMax : Bool) : DecidableRel (Evicts isMax) := fun back x =>
  inferInstanceAs (Decidable (if isMax then back ≤ x else x ≤ back))

/-- `update`; `none` is the `IndexError` of a look at an empty deque. -/
def update (r : RollingExtreme) (x : PyFloat) : Option RollingExtreme :=
  if x = .nan then some r
  else do
    let dq ← expire r.d r.t (push (Evicts r.isMax) r.dq r.t x)
    pure { r with dq := dq, t := r.t + 1 }

/-- `value`. -/
def value (r : RollingExtreme) : Option PyFloat :=
  if r.d ≤ r.t then r.dq.head?.map Prod.snd else some .nan

/-- The updates of a stream, one after another. -/
def feed (r : RollingExtreme) (stream : List PyFloat) : Option RollingExtreme := stream.foldlM update r

/-- The numbers of a stream. -/
def numbers (stream : List PyFloat) : List PyFloat := stream.filter fun x => x ≠ .nan

lemma le_or_le {x y : PyFloat} (hx : x ≠ .nan) (hy : y ≠ .nan) : x ≤ y ∨ y ≤ x := by
  by_cases hlt : x < y
  · have hle : PyFloat.blt x y = true → PyFloat.ble x y = true := by
      rcases x with _ | (_ | _) | p <;> rcases y with _ | (_ | _) | q <;> simp_all [PyFloat.ble, PyFloat.blt]
      exact hlt.le
    exact .inl (hle hlt)
  · exact .inr (PyFloat.le_of_not_lt hx hy hlt)

lemma comparable_evicts (isMax : Bool) : Comparable (Evicts isMax) fun x => x ≠ .nan := by
  cases isMax with
  | true => exact ⟨fun a b c hab hbc => PyFloat.le_trans hab hbc, fun a b ha hb => le_or_le ha hb⟩
  | false => exact ⟨fun a b c hab hbc => PyFloat.le_trans hbc hab, fun a b ha hb => le_or_le hb ha⟩

/-- The state after a stream: every number has been counted, and the deque is the one of the window. -/
structure Fed (d : ℕ) (isMax : Bool) (stream : List PyFloat) (r : RollingExtreme) : Prop where
  width : r.d = d
  direction : r.isMax = isMax
  counted : r.t = (numbers stream).length
  extremal : Extremal (Evicts isMax) d (numbers stream) r.dq

lemma ne_nan_of_mem_numbers {stream : List PyFloat} : ∀ x ∈ numbers stream, x ≠ .nan :=
  fun _ hx => by simpa using (List.mem_filter.mp hx).2

/-- One update. -/
lemma fed_update {d : ℕ} (hd : 0 < d) {isMax : Bool} {stream : List PyFloat} {r : RollingExtreme}
    (h : Fed d isMax stream r) (x : PyFloat) :
    ∃ r', r.update x = some r' ∧ Fed d isMax (stream ++ [x]) r' := by
  unfold update
  by_cases hx : x = .nan
  · have hskipped : numbers (stream ++ [x]) = numbers stream := by simp [numbers, hx]
    rw [if_pos hx]
    refine ⟨r, rfl, h.width, h.direction, ?_, ?_⟩
    · rw [hskipped]
      exact h.counted
    · rw [hskipped]
      exact h.extremal
  · have hnumbers : numbers (stream ++ [x]) = numbers stream ++ [x] := by simp [numbers, hx]
    obtain ⟨dq, hdq, hextremal⟩ :=
      h.extremal.update (comparable_evicts isMax) hd hx ne_nan_of_mem_numbers
    rw [if_neg hx, h.width, h.direction, h.counted, hdq]
    refine ⟨_, rfl, rfl, rfl, ?_, ?_⟩
    · rw [hnumbers, List.length_append, List.length_singleton]
    · rw [hnumbers]
      exact hextremal

/-- The updates of a stream never look at an empty deque. -/
lemma fed_feed {d : ℕ} (hd : 0 < d) (isMax : Bool) (stream : List PyFloat) :
    ∃ r, feed { d := d, isMax := isMax } stream = some r ∧ Fed d isMax stream r := by
  induction stream using List.reverseRecOn with
  | nil => exact ⟨_, rfl, rfl, rfl, rfl, extremal_nil⟩
  | append_singleton stream x ih =>
    obtain ⟨r, hr, hfed⟩ := ih
    obtain ⟨r', hr', hfed'⟩ := fed_update hd hfed x
    refine ⟨r', ?_, hfed'⟩
    rw [feed, List.foldlM_append]
    show (feed { d := d, isMax := isMax } stream >>= fun r => [x].foldlM update r) = some r'
    rw [hr]
    show ([x].foldlM update r : Option RollingExtreme) = some r'
    simp [hr']

/-- After any stream the value is NaN if fewer than `d` numbers have come, and else the extreme of the last
`d` of them. -/
theorem value_feed {d : ℕ} (hd : 0 < d) (isMax : Bool) (stream : List PyFloat) :
    ∃ r v, feed { d := d, isMax := isMax } stream = some r ∧ r.value = some v ∧
      ((numbers stream).length < d → v = .nan) ∧
      (d ≤ (numbers stream).length → v ∈ lastOf d (numbers stream) ∧
        ∀ x ∈ lastOf d (numbers stream), if isMax then x ≤ v else v ≤ x) := by
  obtain ⟨r, hr, hfed⟩ := fed_feed hd isMax stream
  by_cases hfull : d ≤ (numbers stream).length
  · have hne : numbers stream ≠ [] := List.ne_nil_of_length_pos (hd.trans_le hfull)
    obtain ⟨e, rest, hdq, hmem, hextreme⟩ :=
      hfed.extremal.front (comparable_evicts isMax) hd hne ne_nan_of_mem_numbers
    have hvalue : r.value = some e.2 := by
      rw [value, hfed.width, hfed.counted, if_pos hfull, hdq]
      rfl
    exact ⟨r, e.2, hr, hvalue, fun hshort => absurd hfull (not_le.mpr hshort), fun _ => ⟨hmem, hextreme⟩⟩
  · have hvalue : r.value = some .nan := by
      rw [value, hfed.width, hfed.counted, if_neg hfull]
    exact ⟨r, .nan, hr, hvalue, fun _ => rfl, fun h => absurd h hfull⟩

/-- A window of three, with a tie and a NaN. -/
theorem value_feed_ties :
    ∃ r v, feed { d := 3, isMax := true } [2, .nan, 5, 5, 1] = some r ∧ r.value = some v ∧
      ((numbers [2, .nan, 5, 5, 1]).length < 3 → v = .nan) ∧
      (3 ≤ (numbers [2, .nan, 5, 5, 1]).length → v ∈ lastOf 3 (numbers [2, .nan, 5, 5, 1]) ∧
        ∀ x ∈ lastOf 3 (numbers [2, .nan, 5, 5, 1]), if true then x ≤ v else v ≤ x) :=
  value_feed (by decide) true [2, .nan, 5, 5, 1]

example : (feed { d := 3 } [2, .nan, 5, 5, 1]).bind value = some 5 := by decide +kernel

end RollingExtreme

end PaperTrade.Indicators
