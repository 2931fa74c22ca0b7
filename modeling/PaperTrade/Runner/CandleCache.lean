import Mathlib.Data.List.TakeWhile
import PaperTrade.Runner.CandleBuffer
import PaperTrade.Runtime.SortedMap
import PaperTrade.Runtime.Table

/-!
# The shared candle cache

`SharedCandleCache`: one buffer for each symbol and timeframe, the bars that are required and
retained, and the baseline of a timeframe below which candles are skipped. Against it stands a bounded
sorted map for each key (`CandleBook`): an upsert overwrites or inserts the open time and keeps the
greatest ones, a requirement applies the bound again. `Refines` says that a buffer holds what the map
of its key holds, every operation keeps it, and so every snapshot is the end of the map.
-/

namespace PaperTrade.Runner

open PaperTrade.Runtime

/-- A candle as it arrives; `none` is a key that is missing. -/
structure RawCandle where
  openTime : Option ℤ
  time : Option ℤ := none
  «open» : Option PyFloat := none
  high : Option PyFloat := none
  low : Option PyFloat := none
  close : Option PyFloat := none
  volume : Option PyFloat := none

/-- `int(candle.get("open_time", candle.get("time", 0)))`. -/
def RawCandle.openMs (candle : RawCandle) : ℤ := candle.openTime.getD (candle.time.getD 0)

/-- The numbers that are written, each `float(candle.get(key, 0.0))`. -/
def RawCandle.ohlcv (candle : RawCandle) : Ohlcv where
  «open» := candle.open.getD 0
  high := candle.high.getD 0
  low := candle.low.getD 0
  close := candle.close.getD 0
  volume := candle.volume.getD 0

/-- What is written at one index. -/
def RawCandle.bar (candle : RawCandle) : Bar := (candle.openMs, candle.ohlcv)

/-- `CandleSnapshot`. -/
structure CandleSnapshot where
  opens : List PyFloat
  highs : List PyFloat
  lows : List PyFloat
  closes : List PyFloat
  volumes : List PyFloat
  times : List ℤ
deriving DecidableEq

/-- The columns of a list of bars. -/
def CandleSnapshot.ofBars (bars : List Bar) : CandleSnapshot where
  opens := bars.map fun e => e.2.open
  highs := bars.map fun e => e.2.high
  lows := bars.map fun e => e.2.low
  closes := bars.map fun e => e.2.close
  volumes := bars.map fun e => e.2.volume
  times := bars.map fun e => e.1

/-- A symbol and a timeframe. -/
abbrev CacheKey := String × String

/-- A `SharedCandleCache`. -/
structure SharedCandleCache where
  data : Dict CacheKey NumpyCandleBuffer := .empty
  warmupBarsRequired : Dict CacheKey ℕ := .empty
  retainBarsRequired : Dict CacheKey ℕ := .empty
  warmupBaseline : Dict String ℤ := .empty
  dataMaxCandlesFloor : ℕ := 0

namespace NumpyCandleBuffer

/-- `_trim`. -/
def trim (retained : ℕ) (sd : NumpyCandleBuffer) : NumpyCandleBuffer :=
  if retained = 0 then sd else sd.trimTo retained

/-- `_ensure_write_capacity`. -/
def ensureWriteCapacity (retained : ℕ) (sd : NumpyCandleBuffer) : NumpyCandleBuffer :=
  if 0 < retained then sd.ensureCapacity (min retained maxCapacity)
  else sd.ensureCapacity (min (max 100 (sd.size + 1)) maxCapacity)

/-- What `upsert_candle` does to the buffer. -/
def upsert (retained : ℕ) (sd : NumpyCandleBuffer) (e : Bar) : NumpyCandleBuffer :=
  let sd := sd.ensureWriteCapacity retained
  match sd.latestTime with
  | none => (sd.insert 0 e).trim retained
  | some last =>
    if e.1 = last then sd.replace (sd.size - 1) e
    else if last < e.1 then (sd.append e).trim retained
    else if (sd.searchTime e.1).2 then sd.replace (sd.searchTime e.1).1 e
    else (sd.insert (sd.searchTime e.1).1 e).trim retained

end NumpyCandleBuffer

namespace SharedCandleCache

variable (c : SharedCandleCache)

/-- `retained_bars`. -/
def retainedBars (key : CacheKey) : ℕ :=
  max c.dataMaxCandlesFloor
    ((c.retainBarsRequired.get? key).getD ((c.warmupBarsRequired.get? key).getD 0))

/-- `register_data_requirement`: the bars to retain. -/
def retainOf (warmupBars : ℤ) (retainBars : Option ℤ) (retainBufferBars : ℤ) : ℕ :=
  max ((match retainBars with
    | none => warmupBars.toNat
    | some r => r.toNat) + retainBufferBars.toNat) warmupBars.toNat

/-- `register_data_requirement`. -/
def registerDataRequirement (key : CacheKey) (warmupBars : ℤ) (retainBars : Option ℤ)
    (retainBufferBars : ℤ) : SharedCandleCache :=
  let c := { c with
    warmupBarsRequired := c.warmupBarsRequired.set key
      (max warmupBars.toNat ((c.warmupBarsRequired.get? key).getD 0))
    retainBarsRequired := c.retainBarsRequired.set key
      (max (retainOf warmupBars retainBars retainBufferBars)
        ((c.retainBarsRequired.get? key).getD 0)) }
  match c.data.get? key with
  | none => c
  | some sd => { c with
      data := c.data.set key
        ((sd.ensureCapacity (max 1 (c.retainedBars key))).trim (c.retainedBars key)) }

/-- The candle is below the baseline of its timeframe. -/
def belowBaseline (tf : String) (candle : RawCandle) : Bool :=
  match c.warmupBaseline.get? tf with
  | none => false
  | some baseline => candle.openTime.getD 0 < baseline

/-- `upsert_candle`. -/
def upsertCandle (key : CacheKey) (candle : RawCandle) : SharedCandleCache :=
  if c.belowBaseline key.2 candle then c
  else if key.1 = "" ∨ key.2 = "" ∨ candle.openMs ≤ 0 then c
  else
    let sd := (c.data.get? key).getD (.new (max 1 (c.retainedBars key)))
    { c with data := c.data.set key (sd.upsert (c.retainedBars key) candle.bar) }

/-- `set_warmup_baseline`. -/
def setWarmupBaseline (tf : String) (ts : ℤ) : SharedCandleCache :=
  { c with warmupBaseline := c.warmupBaseline.set tf ts }

/-- `tail(n)` of the buffer of a key. -/
def tail (key : CacheKey) (n : ℤ) : List Bar :=
  match c.data.get? key with
  | none => []
  | some sd => sd.tail n

/-- `snapshot`. -/
def snapshot (key : CacheKey) (n : ℤ) : CandleSnapshot := .ofBars (c.tail key n)

end SharedCandleCache

/-! ## The map of a key -/

/-- How many bars are kept under a retention: all that a buffer can hold while there is none. -/
def boundOf (retained : ℕ) : ℕ := if retained = 0 then NumpyCandleBuffer.maxCapacity else retained

/-- What a key is for: the candles by open time, and how many of them are retained. -/
structure CandleBook where
  retained : ℕ
  book : SortedMap ℤ Ohlcv

namespace CandleBook

/-- An upsert: the greatest open times are kept. -/
def put (b : CandleBook) (e : Bar) : CandleBook :=
  { b with book := b.book.put (boundOf b.retained) e }

/-- A requirement: the bound is applied again. -/
def require (b : CandleBook) (retain : ℕ) : CandleBook where
  retained := max b.retained retain
  book := b.book.keep (boundOf (max b.retained retain))

/-- The newest `n` candles in the order of their open times, all of them for `n <= 0`. -/
def newest (b : CandleBook) (n : ℤ) : List Bar :=
  (if n ≤ 0 then b.book.entries else b.book.entries.take n.toNat).reverse

/-- What is read grows in time. -/
lemma newest_sorted (b : CandleBook) (n : ℤ) : (b.newest n).Pairwise fun a e => a.1 < e.1 := by
  unfold newest
  rw [List.pairwise_reverse]
  split
  · exact b.book.sorted
  · exact b.book.sorted.sublist (List.take_sublist _ _)

/-- A number of upserts. -/
lemma foldl_put (b : CandleBook) (es : List Bar) :
    es.foldl put b = { b with book := es.foldl (SortedMap.put (boundOf b.retained)) b.book } := by
  induction es generalizing b with
  | nil => rfl
  | cons e es ih => exact ih (b.put e)

end CandleBook

/-! ## A buffer holds a map -/

lemma insertIdx_length (P S : List Bar) (e : Bar) : (P ++ S).insertIdx P.length e = P ++ e :: S := by
  induction P with
  | nil => rfl
  | cons a P ih =>
    rw [List.cons_append, List.length_cons, List.insertIdx_succ_cons, ih, List.cons_append]

section Upsert

variable {t : ℤ} {v : Ohlcv} {P S : List Bar}

lemma upsertEntry_new (hP : ∀ a ∈ P, a.1 < t) (hS : ∀ a ∈ S, t < a.1) :
    SortedMap.upsertEntry t v (P ++ S).reverse = (P ++ (t, v) :: S).reverse := by
  rw [List.reverse_append, SortedMap.upsertEntry_append fun a ha => hS a (List.mem_reverse.mp ha),
    SortedMap.upsertEntry_cons fun a ha => hP a (List.mem_reverse.mp ha), List.reverse_append,
    List.reverse_cons, List.append_assoc, List.singleton_append]

lemma upsertEntry_found {v₀ : Ohlcv} (hS : ∀ a ∈ S, t < a.1) :
    SortedMap.upsertEntry t v (P ++ (t, v₀) :: S).reverse = (P ++ (t, v) :: S).reverse := by
  rw [List.reverse_append, List.reverse_cons, List.append_assoc, List.singleton_append,
    SortedMap.upsertEntry_append fun a ha => hS a (List.mem_reverse.mp ha),
    SortedMap.upsertEntry_of_eq (e := (t, v₀)) rfl, List.reverse_append, List.reverse_cons, List.append_assoc,
    List.singleton_append]

end Upsert

namespace NumpyCandleBuffer

/-- The buffer holds the entries of the map, oldest first, within its bounds. -/
structure Holds (retained : ℕ) (sd : NumpyCandleBuffer) (m : SortedMap ℤ Ohlcv) : Prop where
  entries : m.entries = sd.bars.reverse
  capacity_le : sd.capacity ≤ maxCapacity
  size_le : sd.size ≤ boundOf retained

/-- The open times grow. -/
lemma Holds.sorted {retained : ℕ} {sd : NumpyCandleBuffer} {m : SortedMap ℤ Ohlcv}
    (h : sd.Holds retained m) : sd.bars.Pairwise fun a b => a.1 < b.1 := by
  have hsorted := m.sorted
  rw [h.entries, List.pairwise_reverse] at hsorted
  exact hsorted

lemma Holds.ensureCapacity {retained : ℕ} {sd : NumpyCandleBuffer} {m : SortedMap ℤ Ohlcv}
    (h : sd.Holds retained m) (capacity : ℕ) : (sd.ensureCapacity capacity).Holds retained m := by
  refine ⟨by rw [bars_ensureCapacity]; exact h.entries, ?_, ?_⟩
  · rw [capacity_ensureCapacity]
    exact max_le h.capacity_le (min_le_right _ _)
  · rw [size_eq_length, bars_ensureCapacity, ← size_eq_length]
    exact h.size_le

/-- After `_ensure_write_capacity` there is room for one more bar below the bound. -/
lemma Holds.ensureWriteCapacity {retained : ℕ} (hretained : retained ≤ maxCapacity)
    {sd : NumpyCandleBuffer} {m : SortedMap ℤ Ohlcv} (h : sd.Holds retained m) :
    (sd.ensureWriteCapacity retained).Holds retained m ∧
      min ((sd.ensureWriteCapacity retained).size + 1) (boundOf retained) ≤
        (sd.ensureWriteCapacity retained).capacity := by
  have hsize : (sd.ensureWriteCapacity retained).size = sd.size := by
    unfold NumpyCandleBuffer.ensureWriteCapacity
    split <;> rw [size_eq_length, bars_ensureCapacity, ← size_eq_length]
  rw [hsize]
  unfold NumpyCandleBuffer.ensureWriteCapacity boundOf
  split
  · rename_i hpos
    refine ⟨h.ensureCapacity _, ?_⟩
    rw [capacity_ensureCapacity, if_neg (by omega)]
    omega
  · rename_i hzero
    refine ⟨h.ensureCapacity _, ?_⟩
    rw [capacity_ensureCapacity, if_pos (by omega)]
    omega

lemma bars_trim (retained : ℕ) (sd : NumpyCandleBuffer) :
    (sd.trim retained).bars = if retained = 0 then sd.bars else sd.bars.drop (sd.size - retained) := by
  unfold trim
  split
  · rfl
  · rename_i h
    exact bars_trimTo sd h

lemma capacity_trim (retained : ℕ) (sd : NumpyCandleBuffer) :
    (sd.trim retained).capacity = sd.capacity := by
  unfold trim
  split
  · rfl
  · exact capacity_trimTo sd retained

lemma capacity_upsert_le (sd : NumpyCandleBuffer) (retained : ℕ) (e : Bar) :
    (sd.upsert retained e).capacity ≤ max sd.capacity maxCapacity := by
  have hwrite : (sd.ensureWriteCapacity retained).capacity ≤ max sd.capacity maxCapacity := by
    unfold NumpyCandleBuffer.ensureWriteCapacity
    split <;> rw [capacity_ensureCapacity] <;> exact max_le_max_left _ (min_le_right _ _)
  have hupsert : (sd.upsert retained e).capacity = (sd.ensureWriteCapacity retained).capacity := by
    unfold NumpyCandleBuffer.upsert
    dsimp only
    split
    · rw [capacity_trim]
      rfl
    · split
      · rfl
      split
      · rw [capacity_trim, capacity_append]
      split
      · rfl
      · rw [capacity_trim]
        rfl
  exact hupsert.trans_le hwrite

/-- A write of one more bar that drops what overflows, and the trim after it, keep the newest bars
up to the bound. -/
lemma holds_of_written {retained : ℕ} {sd sd' : NumpyCandleBuffer} {m m' : SortedMap ℤ Ohlcv}
    (h : sd.Holds retained m) (hroom : min (sd.size + 1) (boundOf retained) ≤ sd.capacity)
    {view : List Bar} (hlength : view.length = sd.size + 1)
    (hbars : sd'.bars = view.drop (sd.size + 1 - sd.capacity)) (hcapacity : sd'.capacity = sd.capacity)
    (hentries : m'.entries = view.reverse) :
    (sd'.trim retained).Holds retained (m'.keep (boundOf retained)) := by
  have hfit := sd.size_le
  have hsize := h.size_le
  have hle := h.capacity_le
  have hsize' : sd'.size = sd.size + 1 - (sd.size + 1 - sd.capacity) := by
    rw [size_eq_length, hbars, List.length_drop, hlength]
  -- the two drops together are the drop of the map
  have hall : (sd'.trim retained).bars = view.drop (sd.size + 1 - boundOf retained) := by
    rw [bars_trim, hbars, hsize']
    unfold boundOf at hroom hsize ⊢
    split
    · rename_i hzero
      rw [if_pos hzero] at hroom hsize
      rw [show sd.size + 1 - sd.capacity = sd.size + 1 - maxCapacity by omega]
    · rename_i hpos
      rw [if_neg hpos] at hroom hsize
      rw [List.drop_drop]
      congr 1
      omega
  refine ⟨?_, ?_, ?_⟩
  · rw [SortedMap.entries_keep, hentries, hall, List.take_reverse, hlength]
  · rw [capacity_trim, hcapacity]
    exact hle
  · rw [size_eq_length, hall, List.length_drop, hlength]
    omega

/-- A write over the bar of the same open time. -/
lemma holds_of_replaced {retained : ℕ} {sd : NumpyCandleBuffer} {m : SortedMap ℤ Ohlcv}
    (h : sd.Holds retained m) {P S : List Bar} {t : ℤ} {v₀ v : Ohlcv}
    (hbars : sd.bars = P ++ (t, v₀) :: S) (hS : ∀ a ∈ S, t < a.1) :
    (sd.replace P.length (t, v)).Holds retained (m.put (boundOf retained) (t, v)) := by
  have hlength : sd.size = P.length + (S.length + 1) := by
    rw [size_eq_length, hbars, List.length_append, List.length_cons]
  have hset : (sd.replace P.length (t, v)).bars = P ++ (t, v) :: S := by
    rw [bars_replace sd (by omega), hbars, List.set_append_right _ _ le_rfl, Nat.sub_self,
      List.set_cons_zero]
  refine ⟨?_, h.capacity_le, h.size_le⟩
  have hsize := h.size_le
  rw [SortedMap.put, SortedMap.entries_keep, SortedMap.entries_upsert, h.entries, hbars, hset,
    upsertEntry_found hS, List.take_of_length_le]
  rw [List.length_reverse, List.length_append, List.length_cons]
  omega

/-- `upsert_candle` on the buffer is an upsert into the map. -/
theorem Holds.upsert {retained : ℕ} (hretained : retained ≤ maxCapacity) {sd : NumpyCandleBuffer}
    {m : SortedMap ℤ Ohlcv} (h : sd.Holds retained m) (e : Bar) :
    (sd.upsert retained e).Holds retained (m.put (boundOf retained) e) := by
  obtain ⟨t, v⟩ := e
  obtain ⟨h, hroom⟩ := h.ensureWriteCapacity hretained
  unfold NumpyCandleBuffer.upsert
  generalize sd.ensureWriteCapacity retained = sd at h hroom
  have hlength := sd.length_bars
  have hsorted := h.sorted
  -- an insert between the smaller and the greater open times
  have hinsert : ∀ P S : List Bar, sd.bars = P ++ S → (∀ a ∈ P, a.1 < t) → (∀ a ∈ S, t < a.1) →
      ((sd.insert P.length (t, v)).trim retained).Holds retained
        (m.put (boundOf retained) (t, v)) := by
    intro P S hbars hP hS
    have hP' : P.length ≤ sd.size := by
      rw [← hlength, hbars, List.length_append]
      omega
    have hview : (sd.tail 0).insertIdx (min P.length sd.size) (t, v) = P ++ (t, v) :: S := by
      rw [tail_zero, hbars, Nat.min_eq_left hP', insertIdx_length]
    have hlen : (P ++ (t, v) :: S).length = sd.size + 1 := by
      rw [← hlength, hbars, List.length_append, List.length_cons, List.length_append]
      omega
    refine holds_of_written h hroom hlen ?_ rfl ?_
    · rw [bars_insert, inserted, hview, hlen]
    · rw [SortedMap.entries_upsert, h.entries, hbars, upsertEntry_new hP hS]
  dsimp only
  rw [latestTime_eq]
  cases hlast : sd.bars.getLast? with
  | none =>
    rw [Option.map_none]
    have hempty : sd.bars = [] := List.getLast?_eq_none_iff.mp hlast
    exact hinsert [] [] hempty (fun _ h => (List.not_mem_nil h).elim)
      fun _ h => (List.not_mem_nil h).elim
  | some last =>
  rw [Option.map_some]
  dsimp only
  obtain ⟨Q, hQ⟩ := List.getLast?_eq_some_iff.mp hlast
  rw [hQ, List.pairwise_append] at hsorted
  split
  · rename_i heq
    obtain ⟨t', v'⟩ := last
    obtain rfl : t = t' := heq
    have hindex : sd.size - 1 = Q.length := by
      rw [← hlength, hQ, List.length_append, List.length_singleton]
      omega
    rw [hindex]
    exact holds_of_replaced h hQ fun _ h => (List.not_mem_nil h).elim
  split
  · rename_i hnewer
    have hview : (sd.bars ++ [(t, v)]).length = sd.size + 1 := by
      rw [List.length_append, hlength, List.length_singleton]
    have hsmaller : ∀ a ∈ sd.bars, a.1 < t := by
      intro a ha
      rw [hQ, List.mem_append, List.mem_singleton] at ha
      rcases ha with ha | rfl
      · exact (hsorted.2.2 a ha last (List.mem_singleton_self _)).trans hnewer
      · exact hnewer
    refine holds_of_written h hroom hview (bars_append sd _) (capacity_append sd _) ?_
    have hnew := upsertEntry_new (v := v) hsmaller fun _ h => (List.not_mem_nil h).elim
    rw [SortedMap.entries_upsert, h.entries, ← hnew, List.append_nil]
  · rename_i hne hnewer
    have hsorted := h.sorted
    -- the open times below `t`, and the rest
    obtain ⟨P, rest, hP, hsplit, hbelow, hhead⟩ : ∃ P rest : List Bar,
        (sd.bars.takeWhile fun a => a.1 < t) = P ∧ sd.bars = P ++ rest ∧ (∀ a ∈ P, a.1 < t) ∧
          ∀ a, rest.head? = some a → t ≤ a.1 := by
      refine ⟨_, sd.bars.dropWhile fun a => a.1 < t, rfl, List.takeWhile_append_dropWhile.symm,
        fun a ha => ?_, fun a ha => ?_⟩
      · have hpred := List.mem_takeWhile_imp (p := fun a : Bar => decide (a.1 < t)) ha
        exact of_decide_eq_true hpred
      · have hnot := List.head?_dropWhile_not (fun a : Bar => decide (a.1 < t)) sd.bars
        rw [ha] at hnot
        simpa using hnot
    rw [searchTime_eq, hP]
    rw [hsplit, List.pairwise_append] at hsorted
    have hget : (sd.bars[P.length]?) = rest.head? := by
      rw [hsplit, List.getElem?_append_right le_rfl, Nat.sub_self, List.head?_eq_getElem?]
    rw [hget]
    cases rest with
    | nil =>
      -- the last bar is newer
      rw [List.append_nil] at hsplit
      have hmem : last ∈ P := by
        rw [← hsplit, hQ]
        exact List.mem_append_right _ (List.mem_singleton_self _)
      exact absurd (hbelow last hmem) hnewer
    | cons a S =>
      obtain ⟨t', v'⟩ := a
      have hle : t ≤ t' := hhead _ rfl
      have hS : ∀ a ∈ S, t' < a.1 := (List.pairwise_cons.mp hsorted.2.1).1
      simp only [List.head?_cons, Option.map_some, Option.some.injEq, decide_eq_true_eq]
      split
      · rename_i hfound
        obtain rfl : t' = t := hfound
        exact holds_of_replaced h hsplit hS
      · rename_i hfresh
        have hlt : t < t' := lt_of_le_of_ne hle (Ne.symm hfresh)
        refine hinsert P _ hsplit hbelow fun b hb => ?_
        rcases List.mem_cons.mp hb with rfl | hb
        · exact hlt
        · exact hlt.trans (hS b hb)

end NumpyCandleBuffer

/-! ## The cache holds a map for each key -/

namespace SharedCandleCache

/-- The cache holds the map of the key, under the same retention. -/
structure Refines (c : SharedCandleCache) (key : CacheKey) (b : CandleBook) : Prop where
  retained : c.retainedBars key = b.retained
  retained_le : b.retained ≤ NumpyCandleBuffer.maxCapacity
  registered : c.retainBarsRequired.get? key = none → c.warmupBarsRequired.get? key = none
  missing : c.data.get? key = none → b.book = .empty
  holds : ∀ sd, c.data.get? key = some sd → sd.Holds b.retained b.book

variable {c : SharedCandleCache} {key : CacheKey} {b : CandleBook}

lemma holds_new {retained : ℕ} (h : retained ≤ NumpyCandleBuffer.maxCapacity) :
    (NumpyCandleBuffer.new (max 1 retained)).Holds retained .empty := by
  have hone : 1 ≤ NumpyCandleBuffer.maxCapacity := by decide
  refine ⟨rfl, ?_, Nat.zero_le _⟩
  change max 1 (max 1 retained) ≤ _
  omega

/-- A candle at or above the baseline is an upsert into the map. -/
theorem Refines.upsert (h : c.Refines key b) {candle : RawCandle} (hsymbol : key.1 ≠ "")
    (htf : key.2 ≠ "") (htime : 0 < candle.openMs) (hbaseline : c.belowBaseline key.2 candle = false) :
    (c.upsertCandle key candle).Refines key (b.put candle.bar) := by
  unfold upsertCandle
  rw [hbaseline, if_neg Bool.false_ne_true, if_neg (by simp only [hsymbol, htf, false_or]; omega)]
  refine ⟨h.retained, h.retained_le, h.registered, fun hnone => ?_, fun sd hsd => ?_⟩
  · dsimp only at hnone
    rw [Dict.get?_set, if_pos rfl] at hnone
    cases hnone
  · dsimp only at hsd
    rw [Dict.get?_set, if_pos rfl, Option.some.injEq, h.retained] at hsd
    subst hsd
    cases hdata : c.data.get? key with
    | none =>
      rw [CandleBook.put, h.missing hdata]
      exact (holds_new h.retained_le).upsert h.retained_le _
    | some sd => exact (h.holds sd hdata).upsert h.retained_le _

lemma Refines.upsert_other (h : c.Refines key b) {k : CacheKey} (hne : k ≠ key)
    (candle : RawCandle) : (c.upsertCandle k candle).Refines key b := by
  unfold upsertCandle
  split
  · exact h
  split
  · exact h
  · refine ⟨h.retained, h.retained_le, h.registered, fun hnone => h.missing ?_,
      fun sd hsd => h.holds sd ?_⟩
    · rwa [Dict.get?_set, if_neg (Ne.symm hne)] at hnone
    · rwa [Dict.get?_set, if_neg (Ne.symm hne)] at hsd

/-- The trim after a new requirement applies the new bound. -/
lemma holds_require {sd : NumpyCandleBuffer} {retained retained' : ℕ} {m : SortedMap ℤ Ohlcv}
    (h : sd.Holds retained m) (hle : retained ≤ retained')
    (hmax : retained' ≤ NumpyCandleBuffer.maxCapacity) (capacity : ℕ) :
    ((sd.ensureCapacity capacity).trim retained').Holds retained' (m.keep (boundOf retained')) := by
  obtain ⟨hentries, hcapacity, hsize⟩ := h.ensureCapacity capacity
  generalize sd.ensureCapacity capacity = sd at hentries hcapacity hsize
  have hlength := sd.length_bars
  have hbars : (sd.trim retained').bars = sd.bars.drop (sd.size - boundOf retained') := by
    rw [NumpyCandleBuffer.bars_trim]
    unfold boundOf at hsize ⊢
    split
    · rename_i hzero
      rw [if_pos (by omega)] at hsize
      rw [Nat.sub_eq_zero_of_le hsize, List.drop_zero]
    · rfl
  refine ⟨?_, ?_, ?_⟩
  · rw [SortedMap.entries_keep, hentries, hbars, List.take_reverse, hlength]
  · rw [NumpyCandleBuffer.capacity_trim]
    exact hcapacity
  · rw [NumpyCandleBuffer.size_eq_length, hbars, List.length_drop, hlength]
    omega

/-- The bars retained for a key grow with its requirements. -/
lemma retainedBars_register
    (h : c.retainBarsRequired.get? key = none → c.warmupBarsRequired.get? key = none) (warmup : ℤ)
    (retain : Option ℤ) (buffer : ℤ) :
    (c.registerDataRequirement key warmup retain buffer).retainedBars key =
      max (c.retainedBars key) (retainOf warmup retain buffer) := by
  have hretained : ∀ w : Dict CacheKey ℕ, max c.dataMaxCandlesFloor
      (((c.retainBarsRequired.set key (max (retainOf warmup retain buffer)
        ((c.retainBarsRequired.get? key).getD 0))).get? key).getD ((w.get? key).getD 0)) =
      max (c.retainedBars key) (retainOf warmup retain buffer) := by
    intro w
    rw [retainedBars, Dict.get?_set, if_pos rfl, Option.getD_some]
    cases hr : c.retainBarsRequired.get? key with
    | none =>
      rw [h hr, Option.getD_none, Option.getD_none]
      omega
    | some r =>
      rw [Option.getD_some, Option.getD_some]
      omega
  unfold registerDataRequirement
  dsimp only
  cases c.data.get? key with
  | none => exact hretained _
  | some sd => exact hretained _

/-- A requirement is one on the map. -/
theorem Refines.register (h : c.Refines key b) {warmup : ℤ} {retain : Option ℤ} {buffer : ℤ}
    (hretain : retainOf warmup retain buffer ≤ NumpyCandleBuffer.maxCapacity) :
    (c.registerDataRequirement key warmup retain buffer).Refines key
      (b.require (retainOf warmup retain buffer)) := by
  have hmax : max b.retained (retainOf warmup retain buffer) ≤ NumpyCandleBuffer.maxCapacity :=
    max_le h.retained_le hretain
  have hretained := retainedBars_register h.registered warmup retain buffer
  rw [h.retained] at hretained
  have hregistered : ∀ {d : Dict CacheKey ℕ} {v : ℕ} {w : Dict CacheKey ℕ},
      (d.set key v).get? key = none → w.get? key = none := by
    intro d v w hnone
    rw [Dict.get?_set, if_pos rfl] at hnone
    cases hnone
  unfold registerDataRequirement at hretained ⊢
  dsimp only at hretained ⊢
  cases hdata : c.data.get? key with
  | none =>
    rw [hdata] at hretained
    refine ⟨hretained, hmax, hregistered, fun _ => ?_, fun sd hsd => ?_⟩
    · rw [CandleBook.require, h.missing hdata, SortedMap.keep_empty]
    · rw [hdata] at hsd
      cases hsd
  | some sd =>
    rw [hdata] at hretained
    refine ⟨hretained, hmax, hregistered, fun hnone => ?_, fun sd' hsd' => ?_⟩
    · dsimp only at hnone
      rw [Dict.get?_set, if_pos rfl] at hnone
      cases hnone
    · dsimp only at hsd'
      rw [Dict.get?_set, if_pos rfl, Option.some.injEq] at hsd'
      subst hsd'
      have hbars := hretained
      unfold retainedBars at hbars ⊢
      dsimp only at hbars ⊢
      rw [hbars]
      exact holds_require (h.holds sd hdata) (le_max_left _ _) hmax _

lemma retainedBars_register_other {k : CacheKey} (hne : k ≠ key) (warmup : ℤ)
    (retain : Option ℤ) (buffer : ℤ) :
    (c.registerDataRequirement k warmup retain buffer).retainedBars key = c.retainedBars key := by
  have hretained : ∀ r w : ℕ, max c.dataMaxCandlesFloor (((c.retainBarsRequired.set k r).get? key).getD
      (((c.warmupBarsRequired.set k w).get? key).getD 0)) = c.retainedBars key := by
    intro r w
    rw [Dict.get?_set, if_neg (Ne.symm hne), Dict.get?_set, if_neg (Ne.symm hne), retainedBars]
  unfold registerDataRequirement
  dsimp only
  cases c.data.get? k with
  | none => exact hretained _ _
  | some sd => exact hretained _ _

lemma Refines.register_other (h : c.Refines key b) {k : CacheKey} (hne : k ≠ key) (warmup : ℤ)
    (retain : Option ℤ) (buffer : ℤ) :
    (c.registerDataRequirement k warmup retain buffer).Refines key b := by
  have hkey : ∀ {α : Type} (d : Dict CacheKey α) (v : α), (d.set k v).get? key = d.get? key := by
    intro α d v
    rw [Dict.get?_set, if_neg (Ne.symm hne)]
  unfold registerDataRequirement
  dsimp only
  cases c.data.get? k with
  | none =>
    refine ⟨?_, h.retained_le, ?_, h.missing, h.holds⟩
    · rw [retainedBars, hkey, hkey]
      exact h.retained
    · rw [hkey, hkey]
      exact h.registered
  | some sd =>
    refine ⟨?_, h.retained_le, ?_, ?_, ?_⟩
    · rw [retainedBars, hkey, hkey]
      exact h.retained
    · rw [hkey, hkey]
      exact h.registered
    · rw [hkey]
      exact h.missing
    · intro sd' hsd'
      rw [hkey] at hsd'
      exact h.holds sd' hsd'

/-- What is read is the end of the map. -/
theorem Refines.tail (h : c.Refines key b) (n : ℤ) : c.tail key n = b.newest n := by
  unfold SharedCandleCache.tail CandleBook.newest
  cases hdata : c.data.get? key with
  | none =>
    rw [h.missing hdata, SortedMap.entries_empty, List.take_nil, ite_self]
    rfl
  | some sd =>
    have hlength := sd.length_bars
    rw [(h.holds sd hdata).entries]
    dsimp only
    rw [NumpyCandleBuffer.tail_eq, NumpyCandleBuffer.tailCount]
    split
    · rw [Nat.sub_self, List.drop_zero, List.reverse_reverse]
    · rw [List.take_reverse, List.reverse_reverse, hlength]
      congr 1
      omega

end SharedCandleCache

/-! ## Runs -/

/-- A call that changes the cache. -/
inductive CacheOp where
  | upsert (key : CacheKey) (candle : RawCandle)
  | register (key : CacheKey) (warmupBars : ℤ) (retainBars : Option ℤ) (retainBufferBars : ℤ)

namespace CacheOp

/-- A candle has a positive open time; no more bars are retained than a buffer can hold. -/
def WellFormed : CacheOp → Prop
  | upsert _ candle => 0 < candle.openMs
  | register _ warmupBars retainBars retainBufferBars =>
    SharedCandleCache.retainOf warmupBars retainBars retainBufferBars ≤ NumpyCandleBuffer.maxCapacity

/-- The call on the cache. -/
def apply (c : SharedCandleCache) : CacheOp → SharedCandleCache
  | upsert key candle => c.upsertCandle key candle
  | register key warmupBars retainBars retainBufferBars =>
    c.registerDataRequirement key warmupBars retainBars retainBufferBars

/-- The call on the map of one key. -/
def applyBook (key : CacheKey) (b : CandleBook) : CacheOp → CandleBook
  | upsert k candle => if k = key then b.put candle.bar else b
  | register k warmupBars retainBars retainBufferBars =>
    if k = key then b.require (SharedCandleCache.retainOf warmupBars retainBars retainBufferBars) else b

end CacheOp

namespace SharedCandleCache

variable {c : SharedCandleCache} {key : CacheKey} {b : CandleBook}

/-- A cache without a baseline, and with the map of the key. -/
structure Unfiltered (c : SharedCandleCache) (key : CacheKey) (b : CandleBook) : Prop where
  refines : c.Refines key b
  baseline : c.warmupBaseline = .empty

lemma warmupBaseline_apply (c : SharedCandleCache) (op : CacheOp) :
    (op.apply c).warmupBaseline = c.warmupBaseline := by
  cases op with
  | upsert k candle =>
    change (c.upsertCandle k candle).warmupBaseline = _
    unfold upsertCandle
    split
    · rfl
    split <;> rfl
  | register k w r n =>
    change (c.registerDataRequirement k w r n).warmupBaseline = _
    unfold registerDataRequirement
    dsimp only
    cases c.data.get? k <;> rfl

lemma Unfiltered.step (h : c.Unfiltered key b) (hsymbol : key.1 ≠ "") (htf : key.2 ≠ "")
    {op : CacheOp} (hop : op.WellFormed) : (op.apply c).Unfiltered key (op.applyBook key b) := by
  refine ⟨?_, (warmupBaseline_apply c op).trans h.baseline⟩
  cases op with
  | upsert k candle =>
    change (c.upsertCandle k candle).Refines key (if k = key then b.put candle.bar else b)
    split
    · rename_i heq
      subst heq
      have hbelow : c.belowBaseline k.2 candle = false := by
        unfold belowBaseline
        rw [h.baseline]
        rfl
      exact h.refines.upsert hsymbol htf hop hbelow
    · rename_i hne
      exact h.refines.upsert_other hne candle
  | register k w r n =>
    change (c.registerDataRequirement k w r n).Refines key
      (if k = key then b.require (retainOf w r n) else b)
    split
    · rename_i heq
      subst heq
      exact h.refines.register hop
    · rename_i hne
      exact h.refines.register_other hne w r n

lemma Unfiltered.run (h : c.Unfiltered key b) (hsymbol : key.1 ≠ "") (htf : key.2 ≠ "")
    {ops : List CacheOp} (hops : ∀ op ∈ ops, op.WellFormed) :
    (ops.foldl CacheOp.apply c).Unfiltered key (ops.foldl (CacheOp.applyBook key) b) := by
  induction ops generalizing c b with
  | nil => exact h
  | cons op ops ih =>
    have hop := hops op (List.mem_cons_self ..)
    exact ih (h.step hsymbol htf hop) fun op' hmem => hops op' (List.mem_cons_of_mem _ hmem)

lemma unfiltered_init {floor : ℕ} (h : floor ≤ NumpyCandleBuffer.maxCapacity) (key : CacheKey) :
    ({ dataMaxCandlesFloor := floor } : SharedCandleCache).Unfiltered key ⟨floor, .empty⟩ := by
  refine ⟨⟨Nat.max_zero floor, h, fun _ => rfl, fun _ => rfl, fun sd hsd => ?_⟩, rfl⟩
  cases hsd

/-- The bound has been applied to the map. -/
lemma Refines.bounded (h : c.Refines key b) : b.book.keep (boundOf b.retained) = b.book := by
  refine SortedMap.ext ?_
  rw [SortedMap.entries_keep]
  cases hdata : c.data.get? key with
  | none => rw [h.missing hdata, SortedMap.entries_empty, List.take_nil]
  | some sd =>
    have hsize := (h.holds sd hdata).size_le
    refine List.take_of_length_le ?_
    rw [(h.holds sd hdata).entries, List.length_reverse, sd.length_bars]
    exact hsize

/-- Upserts of one key after a run. -/
lemma Unfiltered.upserts (h : c.Unfiltered key b) (hsymbol : key.1 ≠ "") (htf : key.2 ≠ "")
    {candles : List RawCandle} (htimes : ∀ candle ∈ candles, 0 < candle.openMs) :
    (candles.foldl (upsertCandle · key ·) c).Refines key
      ((candles.map RawCandle.bar).foldl CandleBook.put b) := by
  induction candles generalizing c b with
  | nil => exact h.refines
  | cons candle candles ih =>
    have hcandle : (CacheOp.upsert key candle).WellFormed := htimes candle (List.mem_cons_self ..)
    have hstep := h.step hsymbol htf hcandle
    have hput : (CacheOp.upsert key candle).applyBook key b = b.put candle.bar := if_pos rfl
    rw [hput] at hstep
    exact ih hstep fun candle' hmem => htimes candle' (List.mem_cons_of_mem _ hmem)

/-- The cache of any run of upserts and requirements reads, for every key, as the bounded sorted map
the same run builds; upserts of different open times may come in any order. -/
theorem candle_cache_refines {floor : ℕ} (hfloor : floor ≤ NumpyCandleBuffer.maxCapacity)
    {ops : List CacheOp} (hops : ∀ op ∈ ops, op.WellFormed) (key : CacheKey) (hsymbol : key.1 ≠ "")
    (htf : key.2 ≠ "") :
    let c := ops.foldl CacheOp.apply { dataMaxCandlesFloor := floor }
    let b := ops.foldl (CacheOp.applyBook key) ⟨floor, .empty⟩
    c.retainedBars key = b.retained ∧
      (∀ n, c.snapshot key n = .ofBars (b.newest n)) ∧
      (∀ n, (c.snapshot key n).times.Pairwise (· < ·)) ∧
      ∀ candles candles' : List RawCandle, candles.Perm candles' →
        (candles.map RawCandle.openMs).Nodup → (∀ candle ∈ candles, 0 < candle.openMs) →
        ∀ n, (candles.foldl (upsertCandle · key ·) c).snapshot key n =
          (candles'.foldl (upsertCandle · key ·) c).snapshot key n := by
  intro c b
  have hrun : c.Unfiltered key b := (unfiltered_init hfloor key).run hsymbol htf hops
  have hread : ∀ n, c.snapshot key n = .ofBars (b.newest n) := by
    intro n
    rw [snapshot, hrun.refines.tail]
  refine ⟨hrun.refines.retained, hread, fun n => ?_, ?_⟩
  · rw [hread]
    exact (b.newest_sorted n).map _ fun _ _ h => h
  · intro candles candles' hperm hnodup htimes n
    have hleft := hrun.upserts hsymbol htf htimes
    have hright := hrun.upserts hsymbol htf fun candle hmem => htimes candle (hperm.mem_iff.mpr hmem)
    have hkeys : ((candles.map RawCandle.bar).map Prod.fst).Nodup := by
      rw [List.map_map]
      exact hnodup
    rw [snapshot, snapshot, hleft.tail, hright.tail, CandleBook.foldl_put, CandleBook.foldl_put,
      SortedMap.foldl_put_perm (hperm.map _) hkeys hrun.refines.bounded]

/-- Out of order, corrected and trimmed to two bars. -/
def sampleOps : List CacheOp :=
  [.upsert ("BTC", "1m") { openTime := some 180000 }, .register ("BTC", "1m") 1 none 1,
    .upsert ("BTC", "1m") { openTime := some 60000 }, .upsert ("BTC", "1m") { openTime := some 240000 },
    .upsert ("BTC", "1m") { openTime := none, time := some 180000, close := some 5 }]

theorem candle_cache_refines_sample :
    ((sampleOps.foldl CacheOp.apply { dataMaxCandlesFloor := 0 }).snapshot ("BTC", "1m") 0).times =
      [180000, 240000] := by
  have hops : ∀ op ∈ sampleOps, op.WellFormed := by
    intro op hop
    simp only [sampleOps, List.mem_cons, List.not_mem_nil, or_false] at hop
    rcases hop with rfl | rfl | rfl | rfl | rfl <;> unfold CacheOp.WellFormed <;> decide
  have hread := (candle_cache_refines (Nat.zero_le _) hops ("BTC", "1m") (by decide) (by decide)).2.1
  rw [hread]
  decide +kernel

end SharedCandleCache

end PaperTrade.Runner
