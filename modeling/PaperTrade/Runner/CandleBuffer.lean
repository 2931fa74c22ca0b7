import Mathlib.Tactic
import PaperTrade.Runtime.Float

/-!
# The candle buffer

`NumpyCandleBuffer`: a circular buffer of candles. The six arrays are always written and read at the
same index, so they are one array of bars here, a function of the physical index. `bars` lists what
the buffer holds, oldest first; every operation is a list operation on it (`bars_append`,
`bars_replace`, `bars_insert`, `bars_trimTo`, `bars_ensureCapacity`).
-/

namespace PaperTrade.Runner

open PaperTrade.Runtime

/-- The numbers of a candle. -/
structure Ohlcv where
  «open» : PyFloat
  high : PyFloat
  low : PyFloat
  close : PyFloat
  volume : PyFloat
deriving DecidableEq, Inhabited

/-- One index of the six arrays: the open time and the numbers. -/
abbrev Bar := ℤ × Ohlcv

/-- A `NumpyCandleBuffer`. -/
structure NumpyCandleBuffer where
  capacity : ℕ
  start : ℕ
  size : ℕ
  slots : ℕ → Bar
  start_lt : start < capacity
  size_le : size ≤ capacity

namespace NumpyCandleBuffer

/-- `MAX_CAPACITY`. -/
def maxCapacity : ℕ := 100000

/-- `NumpyCandleBuffer(capacity)`. -/
def new (capacity : ℕ) : NumpyCandleBuffer where
  capacity := max 1 capacity
  start := 0
  size := 0
  slots := fun _ => default
  start_lt := by omega
  size_le := by omega

variable (b : NumpyCandleBuffer)

/-- `array[lo:hi]`. -/
def slice (lo hi : ℕ) : List Bar := (List.range' lo (hi - lo)).map b.slots

/-- How many bars `tail(n)` returns. -/
def tailCount (n : ℤ) : ℕ := if n ≤ 0 then b.size else min n.toNat b.size

/-- `tail(n)`. -/
def tail (n : ℤ) : List Bar :=
  if b.size = 0 then []
  else
    let count := b.tailCount n
    let offset := b.size - count
    let start := (b.start + offset) % b.capacity
    let stop := start + count
    if stop ≤ b.capacity then b.slice start stop
    else b.slice start b.capacity ++ b.slice 0 (stop % b.capacity)

/-- What the buffer holds, oldest first. -/
def bars : List Bar := (List.range b.size).map fun i => b.slots ((b.start + i) % b.capacity)

lemma length_bars : b.bars.length = b.size := by rw [bars, List.length_map, List.length_range]

lemma getElem?_bars (i : ℕ) :
    b.bars[i]? = if i < b.size then some (b.slots ((b.start + i) % b.capacity)) else none := by
  rw [bars, List.getElem?_map]
  split
  · rename_i h
    rw [List.getElem?_range h, Option.map_some]
  · rename_i h
    rw [List.getElem?_eq_none (by rw [List.length_range]; omega), Option.map_none]

lemma getElem?_slice (lo hi i : ℕ) :
    (b.slice lo hi)[i]? = if i < hi - lo then some (b.slots (lo + i)) else none := by
  rw [slice, List.getElem?_map]
  split
  · rename_i h
    rw [List.getElem?_range' h, Option.map_some, one_mul]
  · rename_i h
    rw [List.getElem?_eq_none (by rw [List.length_range']; omega), Option.map_none]

lemma length_slice (lo hi : ℕ) : (b.slice lo hi).length = hi - lo := by
  rw [slice, List.length_map, List.length_range']

lemma tailCount_le (n : ℤ) : b.tailCount n ≤ b.size := by
  unfold tailCount
  split <;> omega

/-- The window of `tail` is the end of what the buffer holds, wrapped around or not. -/
theorem tail_eq (n : ℤ) : b.tail n = b.bars.drop (b.size - b.tailCount n) := by
  have hcount := b.tailCount_le n
  have hstart := b.start_lt
  have hsize := b.size_le
  unfold tail
  split
  · rename_i hempty
    rw [List.drop_eq_nil_of_le (by rw [length_bars]; omega)]
  · generalize b.tailCount n = count at hcount
    dsimp only
    have hlt : (b.start + (b.size - count)) % b.capacity < b.capacity := Nat.mod_lt _ (by omega)
    -- the physical index of the `i`-th bar of the window
    have hindex : ∀ i, (b.start + (b.size - count + i)) % b.capacity =
        ((b.start + (b.size - count)) % b.capacity + i) % b.capacity := by
      intro i
      rw [Nat.mod_add_mod, add_assoc]
    generalize (b.start + (b.size - count)) % b.capacity = start at hlt hindex
    apply List.ext_getElem?
    intro i
    rw [List.getElem?_drop, getElem?_bars]
    split
    · rw [getElem?_slice]
      by_cases hi : i < count
      · rw [if_pos (by omega), if_pos (by omega), hindex, Nat.mod_eq_of_lt (by omega)]
      · rw [if_neg (by omega), if_neg (by omega)]
    · rename_i hwrap
      have hsplit : (start + count) % b.capacity = start + count - b.capacity := by
        rw [Nat.mod_eq_sub_mod (by omega), Nat.mod_eq_of_lt (by omega)]
      rw [hsplit, List.getElem?_append, length_slice, getElem?_slice, getElem?_slice]
      by_cases hfront : i < b.capacity - start
      · rw [if_pos hfront, if_pos hfront, if_pos (by omega), hindex, Nat.mod_eq_of_lt (by omega)]
      · rw [if_neg hfront]
        by_cases hi : i < count
        · have hmod : (start + i) % b.capacity = 0 + (i - (b.capacity - start)) := by
            rw [Nat.mod_eq_sub_mod (by omega), Nat.mod_eq_of_lt (by omega)]
            omega
          rw [if_pos (by omega), if_pos (by omega), hindex, hmod]
        · rw [if_neg (by omega), if_neg (by omega)]

theorem tail_zero : b.tail 0 = b.bars := by
  rw [tail_eq, tailCount, if_pos le_rfl, Nat.sub_self, List.drop_zero]

/-! ## Operations -/

/-- The arrays after `array[:len(view)] = view`. -/
def writeAll (slots : ℕ → Bar) (view : List Bar) : ℕ → Bar := fun i => view[i]?.getD (slots i)

/-- `ensure_capacity`. -/
def ensureCapacity (capacity : ℕ) : NumpyCandleBuffer :=
  if h : max 1 (min capacity maxCapacity) ≤ b.capacity then b
  else {
    capacity := max 1 (min capacity maxCapacity)
    start := 0
    size := (b.tail 0).length
    slots := writeAll (fun _ => default) (b.tail 0)
    start_lt := by omega
    size_le := by
      rw [tail_zero, length_bars]
      have := b.size_le
      omega }

/-- `latest_time`. -/
def latestTime : Option ℤ :=
  if b.size = 0 then none else some (b.slots ((b.start + b.size - 1) % b.capacity)).1

/-- `append`. -/
def append (e : Bar) : NumpyCandleBuffer :=
  if h : b.size < b.capacity then
    { b with
      size := b.size + 1
      slots := Function.update b.slots ((b.start + b.size) % b.capacity) e
      size_le := h }
  else
    { b with
      start := (b.start + 1) % b.capacity
      slots := Function.update b.slots b.start e
      start_lt := Nat.mod_lt _ (by have := b.start_lt; omega) }

/-- `replace`. -/
def replace (logicalIndex : ℕ) (e : Bar) : NumpyCandleBuffer :=
  { b with slots := Function.update b.slots ((b.start + logicalIndex) % b.capacity) e }

/-- The bars that `insert` puts back. -/
def inserted (logicalIndex : ℕ) (e : Bar) : List Bar :=
  let view := (b.tail 0).insertIdx (min logicalIndex b.size) e
  view.drop (view.length - b.capacity)

/-- `insert`. -/
def insert (logicalIndex : ℕ) (e : Bar) : NumpyCandleBuffer :=
  { b with
    start := 0
    size := (b.inserted logicalIndex e).length
    slots := writeAll b.slots (b.inserted logicalIndex e)
    start_lt := by have := b.start_lt; omega
    size_le := by
      rw [inserted, List.length_drop]
      omega }

/-- `trim_to`. -/
def trimTo (keep : ℕ) : NumpyCandleBuffer :=
  if h : keep = 0 ∨ b.size ≤ keep then b
  else
    { b with
      start := (b.start + (b.size - keep)) % b.capacity
      size := keep
      start_lt := Nat.mod_lt _ (by have := b.start_lt; omega)
      size_le := by have := b.size_le; omega }

/-- `search_time`: `np.searchsorted` on the open times, and whether the time is there. -/
def searchTime (openTime : ℤ) : ℕ × Bool :=
  let times := (b.tail 0).map Prod.fst
  let index := (times.takeWhile (· < openTime)).length
  (index, times[index]? = some openTime)

/-! ## What the operations do to the bars -/

@[simp] lemma bars_new (capacity : ℕ) : (new capacity).bars = [] := rfl

/-- A buffer that has just been written from the start holds what was written. -/
lemma bars_written {b : NumpyCandleBuffer} {slots : ℕ → Bar} {view : List Bar} (hstart : b.start = 0)
    (hsize : b.size = view.length) (hslots : b.slots = writeAll slots view) : b.bars = view := by
  have hle := b.size_le
  apply List.ext_getElem?
  intro i
  rw [getElem?_bars, hstart, hslots, hsize, Nat.zero_add]
  split
  · rename_i hi
    rw [Nat.mod_eq_of_lt (by omega), writeAll, List.getElem?_eq_getElem hi, Option.getD_some]
  · rename_i hi
    rw [List.getElem?_eq_none (by omega)]

@[simp] theorem bars_ensureCapacity (capacity : ℕ) : (b.ensureCapacity capacity).bars = b.bars := by
  unfold ensureCapacity
  split
  · rfl
  · rw [bars_written rfl rfl rfl, tail_zero]

lemma capacity_ensureCapacity (capacity : ℕ) :
    (b.ensureCapacity capacity).capacity = max b.capacity (min capacity maxCapacity) := by
  have hstart := b.start_lt
  unfold ensureCapacity
  split
  · rename_i h
    omega
  · rename_i h
    dsimp only
    omega

lemma size_eq_length : b.size = b.bars.length := b.length_bars.symm

theorem latestTime_eq : b.latestTime = b.bars.getLast?.map Prod.fst := by
  rw [latestTime, List.getLast?_eq_getElem?, length_bars, getElem?_bars]
  by_cases hsize : b.size = 0
  · rw [if_pos hsize, if_neg (by omega), Option.map_none]
  · rw [if_neg hsize, if_pos (by omega), Option.map_some, Nat.add_sub_assoc (by omega)]

/-- Two positions of the window are at two physical indices. -/
lemma index_ne {i j : ℕ} (hi : i < b.capacity) (hj : j < b.capacity) (hne : i ≠ j) :
    (b.start + i) % b.capacity ≠ (b.start + j) % b.capacity := by
  intro h
  have hmod : i % b.capacity = j % b.capacity := Nat.ModEq.add_left_cancel' b.start h
  rw [Nat.mod_eq_of_lt hi, Nat.mod_eq_of_lt hj] at hmod
  exact hne hmod

theorem bars_append (e : Bar) :
    (b.append e).bars = (b.bars ++ [e]).drop (b.size + 1 - b.capacity) := by
  have hle := b.size_le
  have hstart := b.start_lt
  have hlength := b.length_bars
  unfold append
  split
  · rename_i hroom
    rw [Nat.sub_eq_zero_of_le (by omega), List.drop_zero]
    apply List.ext_getElem?
    intro i
    rw [getElem?_bars, List.getElem?_append, hlength, getElem?_bars]
    dsimp only
    rcases lt_trichotomy i b.size with hi | rfl | hi
    · rw [if_pos (by omega), if_pos hi, if_pos hi,
        Function.update_of_ne (b.index_ne (by omega) (by omega) (by omega))]
    · rw [if_pos (by omega), if_neg (by omega), Function.update_self, Nat.sub_self]
      rfl
    · rw [if_neg (by omega), if_neg (by omega), List.getElem?_eq_none]
      rw [List.length_singleton]
      omega
  · rename_i hfull
    have hsize : b.size = b.capacity := by omega
    have hone : b.size + 1 - b.capacity = 1 := by omega
    rw [hone]
    apply List.ext_getElem?
    intro i
    rw [getElem?_bars, List.getElem?_drop, List.getElem?_append, hlength, getElem?_bars]
    dsimp only
    rw [Nat.mod_add_mod, add_assoc]
    rcases lt_trichotomy (1 + i) b.size with hi | hi | hi
    · have hne : (b.start + (1 + i)) % b.capacity ≠ b.start := by
        have hne := b.index_ne (i := 1 + i) (j := 0) (by omega) (by omega) (by omega)
        rwa [Nat.add_zero, Nat.mod_eq_of_lt hstart] at hne
      rw [if_pos (by omega), if_pos hi, if_pos hi, Function.update_of_ne hne]
    · have heq : (b.start + (1 + i)) % b.capacity = b.start := by
        rw [hi, hsize, Nat.add_mod_right, Nat.mod_eq_of_lt hstart]
      rw [if_pos (by omega), if_neg (by omega), heq, Function.update_self, hi, Nat.sub_self]
      rfl
    · rw [if_neg (by omega), if_neg (by omega), List.getElem?_eq_none]
      rw [List.length_singleton]
      omega

theorem bars_replace {i : ℕ} (hi : i < b.size) (e : Bar) : (b.replace i e).bars = b.bars.set i e := by
  have hle := b.size_le
  apply List.ext_getElem?
  intro j
  have hget : (b.replace i e).bars[j]? = if j < b.size then some (Function.update b.slots
      ((b.start + i) % b.capacity) e ((b.start + j) % b.capacity)) else none :=
    getElem?_bars _ j
  rw [hget, List.getElem?_set, length_bars, getElem?_bars]
  by_cases hij : i = j
  · subst hij
    rw [if_pos hi, if_pos rfl, if_pos hi, Function.update_self]
  · rw [if_neg hij]
    split
    · rw [Function.update_of_ne (b.index_ne (by omega) (by omega) (Ne.symm hij))]
    · rfl

theorem bars_insert (i : ℕ) (e : Bar) : (b.insert i e).bars = b.inserted i e :=
  bars_written rfl rfl rfl

theorem bars_trimTo {keep : ℕ} (hkeep : keep ≠ 0) :
    (b.trimTo keep).bars = b.bars.drop (b.size - keep) := by
  unfold trimTo
  split
  · rename_i h
    rw [Nat.sub_eq_zero_of_le (by omega), List.drop_zero]
  · apply List.ext_getElem?
    intro i
    rw [getElem?_bars, List.getElem?_drop, getElem?_bars]
    dsimp only
    rw [Nat.mod_add_mod, add_assoc]
    by_cases hi : i < keep
    · rw [if_pos hi, if_pos (by omega)]
    · rw [if_neg hi, if_neg (by omega)]

lemma capacity_append (e : Bar) : (b.append e).capacity = b.capacity := by
  unfold append
  split <;> rfl

lemma capacity_trimTo (keep : ℕ) : (b.trimTo keep).capacity = b.capacity := by
  unfold trimTo
  split <;> rfl

theorem searchTime_eq (t : ℤ) :
    b.searchTime t = ((b.bars.takeWhile fun e => e.1 < t).length,
      decide ((b.bars[(b.bars.takeWhile fun e => e.1 < t).length]?).map Prod.fst = some t)) := by
  have htake : ((b.bars.map Prod.fst).takeWhile (· < t)).length =
      (b.bars.takeWhile fun e => e.1 < t).length := by
    rw [List.takeWhile_map, List.length_map]
    rfl
  simp only [searchTime, tail_zero, htake, List.getElem?_map]

end NumpyCandleBuffer

end PaperTrade.Runner
