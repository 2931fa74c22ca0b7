import Mathlib.Algebra.Order.Field.Basic
import Mathlib.Data.List.GetD
import PaperTrade.Runtime.Window

/-!
# Statistics of a window

`DecayLinear` is the mean of the last `d` values with the weights from 1 for the oldest to `d` for the
newest one, and `RollingMoments` has their mean, their variance and their skewness. Both keep sums, from
which they take what leaves the window before they add what comes.

The streams have no NaNs, and the arithmetic is that of an ordered field. `none` is NaN. The powers with a
broken exponent are parameters.
-/

namespace PaperTrade.Indicators

open PaperTrade.Runtime

variable {K : Type} [Field K]

/-- The sum of the values with the weights from 1 for the first one on. -/
def weighted (w : List K) : K := ((List.range w.length).map fun j : ℕ => ((j : K) + 1) * w.getD j 0).sum

/-! ## `DecayLinear` -/

structure DecayLinear (K : Type) where
  d : ℕ
  buf : List K := []
  s : K
  ws : K
  norm : K

namespace DecayLinear

/-- `DecayLinear(d)`. -/
def new (d : ℕ) : DecayLinear K where
  d := d
  s := 0
  ws := 0
  norm := d * (d + 1) / (2 : ℕ)

/-- `update`. -/
def update (r : DecayLinear K) (x : K) : DecayLinear K :=
  if r.buf.length = r.d then
    { r with
      ws := r.ws - r.s + r.d * x
      s := r.s - r.buf.headD 0 + x
      buf := (r.buf ++ [x]).tail }
  else
    let buf := r.buf ++ [x]
    { r with
      buf := buf
      s := r.s + x
      ws := if buf.length = r.d then weighted buf else r.ws }

/-- `value`. -/
def value (r : DecayLinear K) : Option K := if r.buf.length = r.d then some (r.ws / r.norm) else none

end DecayLinear

/-! ## `RollingMoments` -/

structure RollingMoments (K : Type) where
  d : ℕ
  buf : List K := []
  s1 : K
  s2 : K
  s3 : K

namespace RollingMoments

/-- `RollingMoments(d)`. -/
def new (d : ℕ) : RollingMoments K where
  d := d
  s1 := 0
  s2 := 0
  s3 := 0

/-- `update`. -/
def update (r : RollingMoments K) (x : K) : RollingMoments K :=
  let buf := r.buf ++ [x]
  if r.d < buf.length then
    let o := buf.headD 0
    { r with
      buf := buf.tail
      s1 := r.s1 + x - o
      s2 := r.s2 + x * x - o * o
      s3 := r.s3 + x * x * x - o * o * o }
  else
    { r with
      buf := buf
      s1 := r.s1 + x
      s2 := r.s2 + x * x
      s3 := r.s3 + x * x * x }

variable (r : RollingMoments K)

/-- `mean`. -/
def mean : Option K := if r.buf.length = 0 then none else some (r.s1 / r.buf.length)

/-- `std`: `v`. -/
def variance : Option K :=
  let n : K := r.buf.length
  let m := r.s1 / n
  if r.buf.length < 2 then none else some ((r.s2 - n * m * m) / (n - 1))

/-- `std`; `root v` is `v ** 0.5`. -/
def std [LinearOrder K] (root : K → K) : Option K := r.variance.bind fun v => if 0 < v then some (root v) else none

/-- `zscore`. -/
def zscore [LinearOrder K] (root : K → K) (x : K) : Option K := do
  let s ← r.std root
  let m ← r.mean
  if 0 < s then some ((x - m) / s) else none

/-- `skew`: `m2`. -/
def m2 : K := r.s2 / r.buf.length - r.s1 / r.buf.length * (r.s1 / r.buf.length)

/-- `skew`: `m3`. -/
def m3 : K :=
  let n : K := r.buf.length
  let m := r.s1 / n
  r.s3 / n - (3 : ℕ) * m * (r.s2 / n) + (2 : ℕ) * m * m * m

/-- `skew`; `power v` is `v ** 1.5`. -/
def skew [LinearOrder K] (power : K → K) : Option K :=
  if r.buf.length < 3 then none
  else if 1 / 10 ^ 12 < r.m2 then some (r.m3 / power r.m2) else none

end RollingMoments

/-! ## What they are -/

/-- The mean with the weights from 1 on. -/
def weightedMean (w : List K) : K := weighted w / ((List.range w.length).map fun j : ℕ => (j : K) + 1).sum

/-- The mean of values. -/
def average (w : List K) : K := w.sum / w.length

/-- The sum of the powers of the distances to the mean. -/
def central (k : ℕ) (w : List K) : K := (w.map fun x => (x - average w) ^ k).sum

/-! ## Weighted sums -/

lemma weighted_concat (w : List K) (x : K) : weighted (w ++ [x]) = weighted w + (w.length + 1) * x := by
  have hold : (List.range w.length).map (fun j : ℕ => ((j : K) + 1) * (w ++ [x]).getD j 0) =
      (List.range w.length).map fun j : ℕ => ((j : K) + 1) * w.getD j 0 := by
    refine List.map_congr_left fun j hj => ?_
    rw [List.getD_append _ _ _ _ (List.mem_range.mp hj)]
  have hlast : (w ++ [x]).getD w.length 0 = x := by
    rw [List.getD_append_right _ _ _ _ le_rfl, Nat.sub_self]
    rfl
  rw [weighted, List.length_append, List.length_singleton, List.range_succ, List.map_append, hold,
    List.sum_append, List.map_singleton, List.sum_singleton, hlast, weighted]

/-- A value in front raises all weights by one. -/
lemma weighted_cons (y : K) (w : List K) : weighted (y :: w) = (y :: w).sum + weighted w := by
  induction w using List.reverseRecOn with
  | nil => simp [weighted]
  | append_singleton w x ih =>
    rw [← List.cons_append, weighted_concat, ih, weighted_concat, List.sum_append, List.length_cons,
      List.sum_singleton]
    push_cast
    ring

/-- The recurrence of a full window. -/
lemma weighted_slide (y x : K) (w : List K) :
    weighted (y :: w) - (y :: w).sum + ((y :: w).length : K) * x = weighted (w ++ [x]) := by
  rw [weighted_cons, weighted_concat, List.length_cons]
  push_cast
  ring

lemma sum_weights [CharZero K] (d : ℕ) :
    ((List.range d).map fun j : ℕ => (j : K) + 1).sum = d * (d + 1) / 2 := by
  induction d with
  | zero => simp
  | succ d ih =>
    rw [List.range_succ, List.map_append, List.sum_append, ih, List.map_singleton, List.sum_singleton]
    push_cast
    ring

namespace DecayLinear

/-- The state after the values `xs`. -/
structure Fed (d : ℕ) (xs : List K) (r : DecayLinear K) : Prop where
  width : r.d = d
  divisor : r.norm = d * (d + 1) / 2
  window : r.buf = lastOf d xs
  sum : r.s = (lastOf d xs).sum
  weights : d ≤ xs.length → r.ws = weighted (lastOf d xs)

lemma fed_update {d : ℕ} (hd : 0 < d) {xs : List K} {r : DecayLinear K} (h : Fed d xs r) (x : K) :
    Fed d (xs ++ [x]) (r.update x) := by
  have hlength : r.buf.length = min d xs.length := by rw [h.window, length_lastOf]
  unfold update
  by_cases hfull : d ≤ xs.length
  · -- the oldest value leaves the window
    have hwindow := lastOf_of_le hd hfull
    have hnext := lastOf_concat_of_le hd hfull x
    have hd' : d = (lastOf d xs).length := by rw [length_lastOf, min_eq_left hfull]
    rw [if_pos (by rw [hlength, h.width, min_eq_left hfull])]
    refine ⟨h.width, h.divisor, ?_, ?_, fun _ => ?_⟩
    · dsimp only
      rw [h.window, tail_concat_lastOf hd hfull]
    · dsimp only
      rw [h.sum, h.window, sum_lastOf_concat hd hfull, hwindow, List.headD_cons]
    · have hslide := weighted_slide xs[xs.length - d] x (lastOf d xs).tail
      rw [← hwindow, ← hd'] at hslide
      dsimp only
      rw [h.weights hfull, h.sum, h.width, hslide, hnext]
  · -- the window fills
    have hlt : xs.length < d := not_le.mp hfull
    have hnext := lastOf_concat_of_lt hlt x
    rw [if_neg (by rw [hlength, h.width]; omega)]
    refine ⟨h.width, h.divisor, ?_, ?_, fun hnew => ?_⟩
    · dsimp only
      rw [h.window, hnext]
    · dsimp only
      rw [h.sum, sum_lastOf_concat_of_lt hlt]
    · rw [List.length_append, List.length_singleton] at hnew
      dsimp only
      rw [if_pos (by rw [List.length_append, hlength, h.width, List.length_singleton]; omega), h.window, hnext]

lemma fed_feed {d : ℕ} (hd : 0 < d) (stream : List K) : Fed d stream (stream.foldl update (new d)) := by
  induction stream using List.reverseRecOn with
  | nil =>
    refine ⟨rfl, rfl, (lastOf_nil d).symm, ?_, fun h => absurd hd (not_lt.mpr h)⟩
    rw [lastOf_nil]
    rfl
  | append_singleton stream x ih =>
    rw [List.foldl_append]
    exact fed_update hd ih x

/-- The value of a full window is its weighted mean. -/
lemma value_afterFeed [CharZero K] {d : ℕ} (hd : 0 < d) (stream : List K) :
    (stream.foldl update (new d)).value =
      if d ≤ stream.length then some (weightedMean (lastOf d stream)) else none := by
  have h := fed_feed hd stream
  by_cases hfull : d ≤ stream.length
  · have hlength : (lastOf d stream).length = d := by rw [length_lastOf, min_eq_left hfull]
    rw [value, h.window, h.width, hlength, if_pos rfl, if_pos hfull, h.weights hfull, h.divisor, weightedMean,
      hlength, sum_weights]
  · rw [value, h.window, h.width, length_lastOf, if_neg hfull, if_neg (by omega)]

end DecayLinear

/-! ## Power sums -/

lemma central_two [CharZero K] {w : List K} (hw : w ≠ []) :
    central 2 w = (w.map fun x => x * x).sum - w.length * average w * average w := by
  have hn : (w.length : K) ≠ 0 := Nat.cast_ne_zero.mpr (List.length_pos_of_ne_nil hw).ne'
  have hexpand : ∀ (m : K) (l : List K), (l.map fun x => (x - m) ^ 2).sum =
      (l.map fun x => x * x).sum - 2 * m * l.sum + l.length * (m * m) := by
    intro m l
    induction l with
    | nil => simp
    | cons x l ih =>
      simp only [List.map_cons, List.sum_cons, List.length_cons, ih]
      push_cast
      ring
  have hsum : w.sum = w.length * average w := by rw [average, mul_div_cancel₀ _ hn]
  rw [central, hexpand, hsum]
  ring

lemma central_three [CharZero K] {w : List K} (hw : w ≠ []) :
    central 3 w = (w.map fun x => x * x * x).sum - 3 * average w * (w.map fun x => x * x).sum +
      2 * w.length * average w ^ 3 := by
  have hn : (w.length : K) ≠ 0 := Nat.cast_ne_zero.mpr (List.length_pos_of_ne_nil hw).ne'
  have hexpand : ∀ (m : K) (l : List K), (l.map fun x => (x - m) ^ 3).sum =
      (l.map fun x => x * x * x).sum - 3 * m * (l.map fun x => x * x).sum + 3 * m ^ 2 * l.sum -
        l.length * m ^ 3 := by
    intro m l
    induction l with
    | nil => simp
    | cons x l ih =>
      simp only [List.map_cons, List.sum_cons, List.length_cons, ih]
      push_cast
      ring
  have hsum : w.sum = w.length * average w := by rw [average, mul_div_cancel₀ _ hn]
  rw [central, hexpand, hsum]
  ring

namespace RollingMoments

/-- The state after the values `xs`. -/
structure Fed (d : ℕ) (xs : List K) (r : RollingMoments K) : Prop where
  width : r.d = d
  window : r.buf = lastOf d xs
  first : r.s1 = (lastOf d xs).sum
  second : r.s2 = ((lastOf d xs).map fun x => x * x).sum
  third : r.s3 = ((lastOf d xs).map fun x => x * x * x).sum

lemma fed_update {d : ℕ} (hd : 0 < d) {xs : List K} {r : RollingMoments K} (h : Fed d xs r) (x : K) :
    Fed d (xs ++ [x]) (r.update x) := by
  have hlength : (r.buf ++ [x]).length = min d xs.length + 1 := by
    rw [h.window, List.length_append, length_lastOf, List.length_singleton]
  unfold update
  dsimp only
  by_cases hfull : d ≤ xs.length
  · -- the sums of the window, its oldest value first, and of the one after it
    have hwindow := lastOf_of_le hd hfull
    have hnext := lastOf_concat_of_le hd hfull x
    have hhead : (r.buf ++ [x]).headD 0 = xs[xs.length - d] := by
      rw [h.window, hwindow]
      rfl
    have hpowers (f : K → K) : ((lastOf d (xs ++ [x])).map f).sum =
        ((lastOf d xs).map f).sum + f x - f xs[xs.length - d] := by
      have hold := congrArg (fun w => (w.map f).sum) hwindow
      simp only [List.map_cons, List.sum_cons] at hold
      rw [hnext, hold, List.map_append, List.sum_append, List.map_singleton, List.sum_singleton]
      ring
    rw [if_pos (by rw [hlength, h.width]; omega), hhead]
    refine ⟨h.width, ?_, ?_, ?_, ?_⟩
    · dsimp only
      rw [h.window, tail_concat_lastOf hd hfull]
    · have hsum := hpowers id
      rw [List.map_id, List.map_id] at hsum
      dsimp only
      rw [h.first, hsum]
      rfl
    · dsimp only
      rw [h.second, hpowers]
    · dsimp only
      rw [h.third, hpowers]
  · have hlt : xs.length < d := not_le.mp hfull
    have hnext := lastOf_concat_of_lt hlt x
    rw [if_neg (by rw [hlength, h.width]; omega)]
    refine ⟨h.width, ?_, ?_, ?_, ?_⟩
    · dsimp only
      rw [h.window, hnext]
    · dsimp only
      rw [h.first, hnext, List.sum_append, List.sum_singleton]
    · dsimp only
      rw [h.second, hnext, List.map_append, List.sum_append]
      simp
    · dsimp only
      rw [h.third, hnext, List.map_append, List.sum_append]
      simp

lemma fed_feed {d : ℕ} (hd : 0 < d) (stream : List K) : Fed d stream (stream.foldl update (new d)) := by
  induction stream using List.reverseRecOn with
  | nil => constructor <;> first | rfl | rw [lastOf_nil]; rfl
  | append_singleton stream x ih =>
    rw [List.foldl_append]
    exact fed_update hd ih x

end RollingMoments

/-! ## Streams -/

/-- What the two classes answer after a stream: `DecayLinear` has the weighted mean of the last `d` values, and
`RollingMoments` their mean, their sample variance and their third central moment, of all values while they
are fewer. -/
structure Summarizes (d : ℕ) (stream : List K) : Prop where
  decay : (stream.foldl DecayLinear.update (.new d)).value =
    if d ≤ stream.length then some (weightedMean (lastOf d stream)) else none
  mean : (stream.foldl RollingMoments.update (.new d)).mean =
    if stream.length = 0 then none else some (average (lastOf d stream))
  variance : (stream.foldl RollingMoments.update (.new d)).variance =
    if stream.length < 2 then none
    else some (central 2 (lastOf d stream) / ((lastOf d stream).length - 1))
  third : 0 < stream.length → (stream.foldl RollingMoments.update (.new d)).m3 =
    central 3 (lastOf d stream) / (lastOf d stream).length

theorem summarizes [CharZero K] {d : ℕ} (hd : 3 ≤ d) (stream : List K) : Summarizes d stream := by
  have h : RollingMoments.Fed d stream (stream.foldl RollingMoments.update (.new d)) :=
    RollingMoments.fed_feed (by omega) stream
  have hpos (hne : 0 < stream.length) : lastOf d stream ≠ [] := by
    refine List.ne_nil_of_length_pos ?_
    rw [length_lastOf]
    omega
  refine ⟨DecayLinear.value_afterFeed (by omega) stream, ?_, ?_, fun hne => ?_⟩
  · unfold RollingMoments.mean
    rw [h.window, h.first, length_lastOf]
    by_cases hne : stream.length = 0
    · rw [if_pos hne, if_pos (by omega)]
    · rw [if_neg hne, if_neg (by omega), average, length_lastOf]
  · unfold RollingMoments.variance
    dsimp only
    rw [h.window, h.first, h.second]
    by_cases hfew : stream.length < 2
    · rw [if_pos hfew, if_pos (by rw [length_lastOf]; omega)]
    · rw [if_neg hfew, if_neg (by rw [length_lastOf]; omega), central_two (hpos (by omega))]
      rfl
  · have hn : ((lastOf d stream).length : K) ≠ 0 :=
      Nat.cast_ne_zero.mpr (List.length_pos_of_ne_nil (hpos hne)).ne'
    unfold RollingMoments.m3
    dsimp only
    rw [h.window, h.first, h.second, h.third, central_three (hpos hne)]
    show _ / _ - 3 * average (lastOf d stream) * _ + 2 * average (lastOf d stream) *
      average (lastOf d stream) * average (lastOf d stream) = _
    field_simp

/-- Four squares go through a window of three. -/
theorem summarizes_squares : Summarizes 3 ([1, 4, 9, 16] : List ℚ) := summarizes (by decide) _

end PaperTrade.Indicators
