import PaperTrade.Base.CandleUpsert
import PaperTrade.Runner.CandleCache

/-!
# Candles into the buffers of the runner

`NumpyCandleBuffer._write_physical` stores a candle number by number, after `append` has already made
room for it; only `insert` converts all numbers first. Here a candle is the decoded message, and a write
says whether it raised. A write that does not raise is the write of `CandleCache`
(`upsertMessage_of_stored`). `upsertMessage_intact_iff` says when one that raises leaves the buffer as
it was.
-/

namespace PaperTrade.Runner

open PaperTrade.Runtime
open PaperTrade.Base (CandleField candleFields candleNumber)

/-! ## The numbers of a bar -/

namespace Ohlcv

def get (o : Ohlcv) : CandleField → PyFloat
  | .open => o.open
  | .high => o.high
  | .low => o.low
  | .close => o.close
  | .volume => o.volume

def put (f : CandleField) (x : PyFloat) (o : Ohlcv) : Ohlcv :=
  match f with
  | .open => { o with «open» := x }
  | .high => { o with high := x }
  | .low => { o with low := x }
  | .close => { o with close := x }
  | .volume => { o with volume := x }

@[simp] lemma get_put_same (f : CandleField) (x : PyFloat) (o : Ohlcv) : (o.put f x).get f = x := by
  cases f <;> rfl

lemma get_put_other {f g : CandleField} (h : g ≠ f) (x : PyFloat) (o : Ohlcv) :
    (o.put f x).get g = o.get g := by
  cases f <;> cases g <;> first | rfl | exact absurd rfl h

@[simp] lemma put_get (f : CandleField) (o : Ohlcv) : o.put f (o.get f) = o := by
  cases f <;> rfl

@[ext] lemma ext_get {o o' : Ohlcv} (h : ∀ f, o.get f = o'.get f) : o = o' := by
  have hopen := h .open
  have hhigh := h .high
  have hlow := h .low
  have hclose := h .close
  have hvolume := h .volume
  cases o
  cases o'
  simp only [get] at hopen hhigh hlow hclose hvolume
  rw [hopen, hhigh, hlow, hclose, hvolume]

/-- The numbers of a bar, as cells. -/
def cells : Cells Ohlcv CandleField PyFloat where
  cell o f := some (o.get f)
  put := put
  cell_put_same f x o _ := by rw [get_put_same]
  cell_put_other f g x o h := by rw [get_put_other h]
  put_self f x o h := by rw [← Option.some.inj h, put_get]

end Ohlcv

/-- The numbers of a candle, where all of them convert. -/
def ohlcvOf (candle : Entries) : Option Ohlcv := do
  let «open» ← candleNumber candle .open
  let high ← candleNumber candle .high
  let low ← candleNumber candle .low
  let close ← candleNumber candle .close
  let volume ← candleNumber candle .volume
  some { «open», high, low, close, volume }

/-- `np.int64` holds an open time. -/
def FitsInt64 (t : ℤ) : Prop := -2 ^ 63 ≤ t ∧ t < 2 ^ 63

instance (t : ℤ) : Decidable (FitsInt64 t) := inferInstanceAs (Decidable (_ ∧ _))

/-! ## Writes that can raise -/

namespace NumpyCandleBuffer

variable (b : NumpyCandleBuffer)

/-- `_write_physical`: the buffer it leaves, and whether it raised. -/
def writePhysical (index : ℕ) (candle : Entries) (openTime : ℤ) : NumpyCandleBuffer × Bool :=
  if FitsInt64 openTime then
    let (numbers, raised) :=
      Ohlcv.cells.storeAll (candleNumber candle) candleFields (b.slots index).2
    ({ b with slots := Function.update b.slots index (openTime, numbers) }, raised)
  else (b, true)

lemma next_start_lt : (b.start + 1) % b.capacity < b.capacity :=
  Nat.mod_lt _ ((Nat.zero_le _).trans_lt b.start_lt)

/-- `append`. -/
def appendCandle (candle : Entries) (openTime : ℤ) : NumpyCandleBuffer × Bool :=
  if h : b.size < b.capacity then
    let index := (b.start + b.size) % b.capacity
    ({ b with size := b.size + 1, size_le := h } : NumpyCandleBuffer).writePhysical index candle openTime
  else
    let index := b.start
    ({ b with
        start := (b.start + 1) % b.capacity
        start_lt := b.next_start_lt } : NumpyCandleBuffer).writePhysical
      index candle openTime

/-- `replace`. -/
def replaceCandle (logicalIndex : ℕ) (candle : Entries) (openTime : ℤ) : NumpyCandleBuffer × Bool :=
  b.writePhysical ((b.start + logicalIndex) % b.capacity) candle openTime

/-- `insert`: everything is converted before anything is stored. -/
def insertCandle (logicalIndex : ℕ) (candle : Entries) (openTime : ℤ) : NumpyCandleBuffer × Bool :=
  match ohlcvOf candle with
  | none => (b, true)
  | some numbers =>
    if FitsInt64 openTime then (b.insert logicalIndex (openTime, numbers), false) else (b, true)

/-- The trim after a write that did not raise. -/
def thenTrim (retained : ℕ) (written : NumpyCandleBuffer × Bool) : NumpyCandleBuffer × Bool :=
  if written.2 then written else (written.1.trim retained, false)

/-- What `upsert_candle` does to the buffer, and whether it raises. -/
def upsertMessage (sd : NumpyCandleBuffer) (retained : ℕ) (candle : Entries) (openTime : ℤ) :
    NumpyCandleBuffer × Bool :=
  let sd := sd.ensureWriteCapacity retained
  match sd.latestTime with
  | none => thenTrim retained (sd.insertCandle 0 candle openTime)
  | some last =>
    if openTime = last then sd.replaceCandle (sd.size - 1) candle openTime
    else if last < openTime then thenTrim retained (sd.appendCandle candle openTime)
    else if (sd.searchTime openTime).2 then
      sd.replaceCandle (sd.searchTime openTime).1 candle openTime
    else thenTrim retained (sd.insertCandle (sd.searchTime openTime).1 candle openTime)

end NumpyCandleBuffer

/-! ## What can be stored -/

section

variable {candle : Entries} {openTime : ℤ} {o : Ohlcv}

lemma candleNumber_of_ohlcvOf (h : ohlcvOf candle = some o) (f : CandleField) :
    candleNumber candle f = some (o.get f) := by
  simp only [ohlcvOf, bind, Option.bind_eq_some_iff, Option.some.injEq] at h
  obtain ⟨x₁, h₁, x₂, h₂, x₃, h₃, x₄, h₄, x₅, h₅, rfl⟩ := h
  cases f
  · exact h₁
  · exact h₂
  · exact h₃
  · exact h₄
  · exact h₅

lemma exists_ohlcvOf_iff : (∃ o, ohlcvOf candle = some o) ↔ ∀ f, (candleNumber candle f).isSome := by
  constructor
  · rintro ⟨o, ho⟩ f
    rw [candleNumber_of_ohlcvOf ho f]
    rfl
  · intro h
    obtain ⟨x₁, h₁⟩ := Option.isSome_iff_exists.mp (h .open)
    obtain ⟨x₂, h₂⟩ := Option.isSome_iff_exists.mp (h .high)
    obtain ⟨x₃, h₃⟩ := Option.isSome_iff_exists.mp (h .low)
    obtain ⟨x₄, h₄⟩ := Option.isSome_iff_exists.mp (h .close)
    obtain ⟨x₅, h₅⟩ := Option.isSome_iff_exists.mp (h .volume)
    exact ⟨⟨x₁, x₂, x₃, x₄, x₅⟩, by simp [ohlcvOf, h₁, h₂, h₃, h₄, h₅]⟩

/-- The open time fits and the numbers convert. -/
def Storable (candle : Entries) (openTime : ℤ) : Prop :=
  FitsInt64 openTime ∧ ∀ f, (candleNumber candle f).isSome

lemma Storable.exists_ohlcv (h : Storable candle openTime) : ∃ o, ohlcvOf candle = some o :=
  exists_ohlcvOf_iff.mpr h.2

lemma storeAll_numbers (old : Ohlcv) (ho : ohlcvOf candle = some o) :
    Ohlcv.cells.storeAll (candleNumber candle) candleFields old = (o, false) := by
  have hwrites : ∀ f ∈ candleFields, Ohlcv.cells.Writes (candleNumber candle) old f = true := by
    intro f _
    simp [Cells.Writes, candleNumber_of_ohlcvOf ho f, Ohlcv.cells]
  rw [Cells.storeAll_eq Base.nodup_candleFields, List.takeWhile_eq_self_iff.mpr hwrites,
    List.all_eq_true.mpr hwrites]
  congr 1
  refine Ohlcv.ext_get fun f => ?_
  have hcell := Cells.cell_putAll_mem Base.nodup_candleFields hwrites (Base.mem_candleFields f)
  rw [candleNumber_of_ohlcvOf ho f] at hcell
  exact Option.some.inj hcell

lemma storeAll_numbers_raises (old : Ohlcv) (h : ¬ ∀ f, (candleNumber candle f).isSome) :
    (Ohlcv.cells.storeAll (candleNumber candle) candleFields old).2 = true := by
  rw [Cells.storeAll_eq Base.nodup_candleFields]
  obtain ⟨f, hf⟩ := not_forall.mp h
  have hfails : Ohlcv.cells.Writes (candleNumber candle) old f = false := by
    simp [Cells.Writes, Bool.eq_false_of_not_eq_true hf]
  rw [Bool.not_eq_true', List.all_eq_false]
  exact ⟨f, Base.mem_candleFields f, by rw [hfails]; exact Bool.false_ne_true⟩

end

namespace NumpyCandleBuffer

variable {b sd : NumpyCandleBuffer} {candle : Entries} {openTime : ℤ} {o : Ohlcv} {retained : ℕ}

section

variable (hfits : FitsInt64 openTime) (ho : ohlcvOf candle = some o)

include hfits ho

lemma writePhysical_of_stored (index : ℕ) :
    b.writePhysical index candle openTime =
      ({ b with slots := Function.update b.slots index (openTime, o) }, false) := by
  rw [writePhysical, if_pos hfits, storeAll_numbers _ ho]

lemma appendCandle_of_stored : b.appendCandle candle openTime = (b.append (openTime, o), false) := by
  unfold appendCandle append
  split
  · exact writePhysical_of_stored hfits ho _
  · exact writePhysical_of_stored hfits ho _

lemma replaceCandle_of_stored (i : ℕ) :
    b.replaceCandle i candle openTime = (b.replace i (openTime, o), false) :=
  writePhysical_of_stored hfits ho _

lemma insertCandle_of_stored (i : ℕ) :
    b.insertCandle i candle openTime = (b.insert i (openTime, o), false) := by
  rw [insertCandle, ho]
  exact if_pos hfits

/-- A message that can be stored is the upsert of its bar. -/
theorem upsertMessage_of_stored :
    upsertMessage sd retained candle openTime = (sd.upsert retained (openTime, o), false) := by
  unfold upsertMessage upsert
  dsimp only
  cases (sd.ensureWriteCapacity retained).latestTime with
  | none =>
    dsimp only
    rw [insertCandle_of_stored hfits ho]
    rfl
  | some last =>
    dsimp only
    rw [replaceCandle_of_stored hfits ho, replaceCandle_of_stored hfits ho,
      insertCandle_of_stored hfits ho, appendCandle_of_stored hfits ho]
    split
    · rfl
    split
    · rfl
    split
    · rfl
    · rfl

end

/-! ## Writes that raise -/

lemma writePhysical_raises (h : ¬ Storable candle openTime) (index : ℕ) :
    (b.writePhysical index candle openTime).2 = true := by
  unfold writePhysical
  split
  · rename_i hfits
    exact storeAll_numbers_raises _ fun hall => h ⟨hfits, hall⟩
  · rfl

lemma appendCandle_raises (h : ¬ Storable candle openTime) :
    (b.appendCandle candle openTime).2 = true := by
  unfold appendCandle
  split
  · exact writePhysical_raises h _
  · exact writePhysical_raises h _

/-- An `insert` that raises has stored nothing. -/
lemma insertCandle_of_not_storable (h : ¬ Storable candle openTime) (i : ℕ) :
    b.insertCandle i candle openTime = (b, true) := by
  unfold insertCandle
  split
  · rfl
  · rename_i numbers hnumbers
    exact if_neg fun hfits => h ⟨hfits, exists_ohlcvOf_iff.mp ⟨numbers, hnumbers⟩⟩

lemma thenTrim_raised {written : NumpyCandleBuffer × Bool} (h : written.2 = true) :
    thenTrim retained written = written := if_pos h

/-! ## Where the candle goes -/

/-- The open times of the buffer. -/
def times (b : NumpyCandleBuffer) : List ℤ := b.bars.map Prod.fst

lemma length_times (b : NumpyCandleBuffer) : b.times.length = b.size := by
  rw [times, List.length_map, length_bars]

lemma latestTime_eq_times (b : NumpyCandleBuffer) : b.latestTime = b.times.getLast? := by
  rw [latestTime_eq, times, List.getLast?_map]

lemma searchTime_eq_times (b : NumpyCandleBuffer) (t : ℤ) :
    b.searchTime t = (bisectLeft b.times t, decide (b.times[bisectLeft b.times t]? = some t)) := by
  rw [searchTime, tail_zero]
  rfl

@[simp] lemma bars_ensureWriteCapacity (retained : ℕ) (sd : NumpyCandleBuffer) :
    (sd.ensureWriteCapacity retained).bars = sd.bars := by
  unfold ensureWriteCapacity
  split <;> exact bars_ensureCapacity ..

@[simp] lemma times_ensureWriteCapacity (retained : ℕ) (sd : NumpyCandleBuffer) :
    (sd.ensureWriteCapacity retained).times = sd.times := by
  rw [times, bars_ensureWriteCapacity, times]

section

variable (hs : sd.times.Pairwise (· < ·))

include hs

/-- A candle of a bar that is there replaces it. -/
lemma upsertMessage_of_mem (ht : openTime ∈ sd.times) :
    upsertMessage sd retained candle openTime =
      (sd.ensureWriteCapacity retained).replaceCandle (sd.times.idxOf openTime) candle openTime := by
  obtain ⟨last, hlast⟩ : ∃ last, sd.times.getLast? = some last :=
    Option.isSome_iff_exists.mp (by simpa using List.ne_nil_of_mem ht)
  unfold upsertMessage
  dsimp only
  rw [latestTime_eq_times, searchTime_eq_times, times_ensureWriteCapacity, hlast]
  dsimp only
  by_cases heq : openTime = last
  · rw [if_pos heq, ← length_times, times_ensureWriteCapacity, idxOf_last hs (heq ▸ hlast)]
  · have hle : ¬ last < openTime := not_lt.mpr (le_last hs hlast ht)
    have hfound : sd.times[bisectLeft sd.times openTime]? = some openTime := by
      rw [bisectLeft_of_mem hs ht]
      exact List.getElem?_idxOf ht
    rw [if_neg heq, if_neg hle, if_pos (by simpa using hfound), bisectLeft_of_mem hs ht]

/-- A candle after all bars is appended. -/
lemma upsertMessage_of_later (hne : sd.times ≠ []) (hlater : ∀ a ∈ sd.times, a < openTime) :
    upsertMessage sd retained candle openTime =
      thenTrim retained ((sd.ensureWriteCapacity retained).appendCandle candle openTime) := by
  obtain ⟨last, hlast⟩ : ∃ last, sd.times.getLast? = some last :=
    Option.isSome_iff_exists.mp (by simpa using hne)
  have hlt := hlater last (List.mem_of_getLast? hlast)
  unfold upsertMessage
  dsimp only
  rw [latestTime_eq_times, times_ensureWriteCapacity, hlast]
  dsimp only
  rw [if_neg hlt.ne', if_pos hlt]

/-- Any other candle is inserted. -/
lemma upsertMessage_of_between (ht : openTime ∉ sd.times)
    (hbetween : ¬ (sd.times ≠ [] ∧ ∀ a ∈ sd.times, a < openTime)) :
    upsertMessage sd retained candle openTime =
      thenTrim retained ((sd.ensureWriteCapacity retained).insertCandle
        (bisectLeft sd.times openTime) candle openTime) := by
  unfold upsertMessage
  dsimp only
  rw [latestTime_eq_times, searchTime_eq_times, times_ensureWriteCapacity]
  match hlast : sd.times.getLast? with
  | none =>
    have hempty : sd.times = [] := List.getLast?_eq_none_iff.mp hlast
    rw [hempty]
    rfl
  | some last =>
    have hne : openTime ≠ last := fun h => ht (h ▸ List.mem_of_getLast? hlast)
    have hnil : sd.times ≠ [] := fun h => by simp [h] at hlast
    have hlt : ¬ last < openTime := fun h =>
      hbetween ⟨hnil, fun a ha => (le_last hs hlast ha).trans_lt h⟩
    dsimp only
    rw [if_neg hne, if_neg hlt, if_neg (by simpa using bisectLeft_of_not_mem ht)]

end

/-! ## Upserts that raise -/

/-- The same size, start and bars. -/
structure Same (b b' : NumpyCandleBuffer) : Prop where
  size : b'.size = b.size
  start : b'.start = b.start
  bars : b'.bars = b.bars

/-- The message leaves the buffer intact: it can be stored, or no bars are moved for it and it is
inserted between other bars, or repeats the numbers of the bar it replaces up to the first that does not
convert, or its time does not fit into the only slot of the buffer. -/
def Harmless (sd : NumpyCandleBuffer) (retained : ℕ) (candle : Entries) (openTime : ℤ) : Prop :=
  Storable candle openTime ∨
    (sd.ensureWriteCapacity retained).start = sd.start ∧
      if openTime ∈ sd.times then
        FitsInt64 openTime →
          ∀ f ∈ candleFields.takeWhile fun f => (candleNumber candle f).isSome,
            sd.bars[sd.times.idxOf openTime]?.map (·.2.get f) = candleNumber candle f
      else if sd.times ≠ [] ∧ ∀ a ∈ sd.times, a < openTime then
        ¬ FitsInt64 openTime ∧ (sd.ensureWriteCapacity retained).capacity = 1
      else True

/-- A buffer that was moved has room. -/
lemma ensureWriteCapacity_room (retained : ℕ) (sd : NumpyCandleBuffer) :
    sd.ensureWriteCapacity retained = sd ∨
      (sd.ensureWriteCapacity retained).size < (sd.ensureWriteCapacity retained).capacity := by
  have hensure (capacity : ℕ) :
      sd.ensureCapacity capacity = sd ∨ (sd.ensureCapacity capacity).size <
        (sd.ensureCapacity capacity).capacity := by
    have hsize := sd.size_le
    have hstart := sd.start_lt
    rw [size_eq_length, bars_ensureCapacity, ← size_eq_length, capacity_ensureCapacity]
    unfold ensureCapacity
    split
    · exact .inl rfl
    · right
      omega
  unfold ensureWriteCapacity
  split <;> exact hensure _

lemma size_ensureWriteCapacity (retained : ℕ) (sd : NumpyCandleBuffer) :
    (sd.ensureWriteCapacity retained).size = sd.size := by
  rw [size_eq_length, bars_ensureWriteCapacity, ← size_eq_length]

lemma writePhysical_keeps (b : NumpyCandleBuffer) (index : ℕ) (candle : Entries) (openTime : ℤ) :
    (b.writePhysical index candle openTime).1.size = b.size ∧
      (b.writePhysical index candle openTime).1.start = b.start ∧
      (b.writePhysical index candle openTime).1.capacity = b.capacity := by
  unfold writePhysical
  split <;> exact ⟨rfl, rfl, rfl⟩

lemma size_appendCandle (hroom : b.size < b.capacity) :
    (b.appendCandle candle openTime).1.size = b.size + 1 := by
  rw [appendCandle, dif_pos hroom]
  exact (writePhysical_keeps ..).1

/-- What an `append` that raises leaves: never the buffer as it was, but for a time that does not fit
into a buffer of one slot. -/
lemma appendCandle_same_iff (hne : b.size ≠ 0) (hlater : ∀ a ∈ b.times, a < openTime) :
    b.Same (b.appendCandle candle openTime).1 ↔ ¬ FitsInt64 openTime ∧ b.capacity = 1 := by
  have hle := b.size_le
  have hstart := b.start_lt
  by_cases hroom : b.size < b.capacity
  · refine iff_of_false (fun h => ?_) fun h => by omega
    have hsize := h.size
    rw [size_appendCandle hroom] at hsize
    exact absurd hsize (Nat.succ_ne_self _)
  · rw [appendCandle, dif_neg hroom]
    by_cases hone : b.capacity = 1
    · have hzero : b.start = 0 := by omega
      have hsize : b.size = 1 := by omega
      have hunmoved : (b.start + 1) % b.capacity = b.start := by rw [hone, hzero]
      have hslot : b.bars = [b.slots 0] := by
        rw [bars, hsize, hzero, hone]
        rfl
      unfold writePhysical
      by_cases hfits : FitsInt64 openTime
      · rw [if_pos hfits]
        refine iff_of_false (fun h => ?_) fun h => h.1 hfits
        -- the only bar has the new time now
        have hnew := congrArg (List.map Prod.fst) h.bars
        have hold : openTime ∈ b.times := by
          rw [times, ← hnew]
          simp [bars, hsize, hunmoved, hzero, hone]
        exact lt_irrefl _ (hlater _ hold)
      · rw [if_neg hfits]
        refine iff_of_true ⟨rfl, hunmoved, ?_⟩ ⟨hfits, hone⟩
        simp only [bars, hunmoved]
    · refine iff_of_false (fun h => ?_) fun h => hone h.2
      have hsame := h.start
      rw [(writePhysical_keeps ..).2.1] at hsame
      have hmoved : (b.start + 1) % b.capacity = b.start := hsame
      by_cases hwrap : b.start + 1 = b.capacity
      · rw [hwrap, Nat.mod_self] at hmoved
        omega
      · rw [Nat.mod_eq_of_lt (by omega)] at hmoved
        omega

/-- What a `replace` that raises leaves. -/
lemma replaceCandle_bars_iff {i : ℕ} {old : Ohlcv} (hbar : b.bars[i]? = some (openTime, old))
    (h : ¬ Storable candle openTime) :
    (b.replaceCandle i candle openTime).1.bars = b.bars ↔
      (FitsInt64 openTime → ∀ f ∈ candleFields.takeWhile fun f => (candleNumber candle f).isSome,
        some (old.get f) = candleNumber candle f) := by
  obtain ⟨hi, hget⟩ := List.getElem?_eq_some_iff.mp hbar
  have hslot : b.slots ((b.start + i) % b.capacity) = (openTime, old) := by
    rw [getElem?_bars, if_pos (by rwa [← length_bars])] at hbar
    exact Option.some.inj hbar
  unfold replaceCandle writePhysical
  by_cases hfits : FitsInt64 openTime
  · have hall : ¬ ∀ f, (candleNumber candle f).isSome := fun hall => h ⟨hfits, hall⟩
    have hraises := storeAll_numbers_raises old hall
    have hwrites : Ohlcv.cells.Writes (candleNumber candle) old =
        fun f => (candleNumber candle f).isSome := by
      funext f
      simp [Cells.Writes, Ohlcv.cells]
    have hintact : (Ohlcv.cells.storeAll (candleNumber candle) candleFields old).1 = old ↔
        ∀ f ∈ candleFields.takeWhile fun f => (candleNumber candle f).isSome,
          some (old.get f) = candleNumber candle f := by
      have hiff : ((Ohlcv.cells.storeAll (candleNumber candle) candleFields old).2 = true →
          (Ohlcv.cells.storeAll (candleNumber candle) candleFields old).1 = old) ↔ _ :=
        Cells.storeAll_intact_iff Base.nodup_candleFields old
      rw [hwrites, or_iff_right fun h => hall fun f => h f (Base.mem_candleFields f)] at hiff
      exact Iff.trans ⟨fun h _ => h, fun h => h hraises⟩ hiff
    rw [if_pos hfits, hslot, ← hintact]
    show (b.replace i (openTime, _)).bars = b.bars ↔ _
    rw [bars_replace b (by rwa [← length_bars])]
    constructor
    · intro hset _
      have hat := congrArg (·[i]?) hset
      dsimp only at hat
      rw [List.getElem?_set_self hi, hbar, Option.some.injEq, Prod.mk.injEq] at hat
      exact hat.2
    · intro hold
      rw [hold hfits, ← hget, List.set_getElem_self]
  · rw [if_neg hfits]
    exact iff_of_true rfl fun hfits' => absurd hfits' hfits

lemma bar_of_mem_times {t : ℤ} (ht : t ∈ b.times) :
    ∃ o, b.bars[b.times.idxOf t]? = some (t, o) := by
  have hidx := List.getElem?_idxOf ht
  rw [times, List.getElem?_map, Option.map_eq_some_iff] at hidx
  obtain ⟨⟨t', o⟩, hbar, rfl⟩ := hidx
  exact ⟨o, hbar⟩

/-- An upsert raises when the message cannot be stored. -/
lemma upsertMessage_raises_iff :
    (upsertMessage sd retained candle openTime).2 = true ↔ ¬ Storable candle openTime := by
  constructor
  · intro hraises hstorable
    obtain ⟨o, ho⟩ := hstorable.exists_ohlcv
    rw [upsertMessage_of_stored hstorable.1 ho] at hraises
    cases hraises
  · intro h
    unfold upsertMessage
    dsimp only
    have hinsert (b : NumpyCandleBuffer) (i : ℕ) :
        (thenTrim retained (b.insertCandle i candle openTime)).2 = true := by
      rw [insertCandle_of_not_storable h]
      rfl
    split
    · exact hinsert _ _
    · split
      · exact writePhysical_raises h _
      split
      · rw [thenTrim_raised (appendCandle_raises h)]
        exact appendCandle_raises h
      split
      · exact writePhysical_raises h _
      · exact hinsert _ _

/-- An upsert that raises leaves the size, the start and the bars as they were when the message is
harmless, and only then. -/
theorem upsertMessage_intact_iff (hs : sd.times.Pairwise (· < ·)) (retained : ℕ) (candle : Entries)
    (openTime : ℤ) :
    ((upsertMessage sd retained candle openTime).2 = true →
      sd.Same (upsertMessage sd retained candle openTime).1) ↔
      Harmless sd retained candle openTime := by
  rw [upsertMessage_raises_iff]
  unfold Harmless
  by_cases h : Storable candle openTime
  · exact iff_of_true (fun hnot => absurd h hnot) (.inl h)
  rw [or_iff_right h]
  refine Iff.trans ⟨fun hsame => hsame h, fun hsame _ => hsame⟩ ?_
  by_cases ht : openTime ∈ sd.times
  · rw [if_pos ht, upsertMessage_of_mem hs ht]
    obtain ⟨old, hbar⟩ := bar_of_mem_times ht
    have hbar' := hbar
    rw [← bars_ensureWriteCapacity retained] at hbar'
    have hbars := replaceCandle_bars_iff hbar' h
    rw [bars_ensureWriteCapacity] at hbars
    rw [hbar]
    obtain ⟨hsize, hstart, -⟩ := (sd.ensureWriteCapacity retained).writePhysical_keeps
      (((sd.ensureWriteCapacity retained).start + sd.times.idxOf openTime) %
        (sd.ensureWriteCapacity retained).capacity) candle openTime
    constructor
    · intro hsame
      exact ⟨hstart.symm.trans hsame.start, hbars.mp hsame.bars⟩
    · rintro ⟨hmoved, hnumbers⟩
      exact ⟨hsize.trans (size_ensureWriteCapacity ..), hstart.trans hmoved, hbars.mpr hnumbers⟩
  rw [if_neg ht]
  by_cases hlater : sd.times ≠ [] ∧ ∀ a ∈ sd.times, a < openTime
  · rw [if_pos hlater, upsertMessage_of_later hs hlater.1 hlater.2,
      thenTrim_raised (appendCandle_raises h)]
    have hne : sd.size ≠ 0 := by
      rw [← length_times]
      exact fun hzero => hlater.1 (List.length_eq_zero_iff.mp hzero)
    rcases sd.ensureWriteCapacity_room retained with hunmoved | hroom
    · rw [hunmoved, appendCandle_same_iff hne hlater.2]
      exact ⟨fun hsame => ⟨rfl, hsame⟩, fun hsame => hsame.2⟩
    · -- the buffer was moved and grows
      rw [size_ensureWriteCapacity] at hroom
      refine iff_of_false (fun hsame => ?_) fun hsame => by omega
      have hsize := hsame.size
      rw [size_appendCandle (by rwa [size_ensureWriteCapacity]), size_ensureWriteCapacity] at hsize
      exact absurd hsize (Nat.succ_ne_self _)
  · rw [if_neg hlater, upsertMessage_of_between hs ht hlater, insertCandle_of_not_storable h]
    constructor
    · exact fun hsame => ⟨hsame.start, trivial⟩
    · exact fun hstart => ⟨size_ensureWriteCapacity .., hstart.1, bars_ensureWriteCapacity ..⟩

/-! ## The times stay sorted -/

lemma times_trim (retained : ℕ) (sd : NumpyCandleBuffer) :
    ∃ n, (sd.trim retained).times = sd.times.drop n := by
  unfold times
  rw [bars_trim]
  split
  · exact ⟨0, rfl⟩
  · exact ⟨sd.size - retained, List.map_drop ..⟩

lemma times_append (e : Bar) : ∃ n, (b.append e).times = (b.times ++ [e.1]).drop n :=
  ⟨b.size + 1 - b.capacity, by rw [times, bars_append, List.map_drop, List.map_append]; rfl⟩

lemma times_replace {i : ℕ} {t : ℤ} (hi : b.times[i]? = some t) (o : Ohlcv) :
    (b.replace i (t, o)).times = b.times := by
  obtain ⟨hlt, ht⟩ := List.getElem?_eq_some_iff.mp hi
  have hsize : i < b.size := by rwa [← length_times]
  rw [times, bars_replace b hsize, List.map_set]
  show b.times.set i t = b.times
  rw [← ht, List.set_getElem_self]

lemma times_insert (i : ℕ) (e : Bar) : ∃ n, (b.insert i e).times = (insertAt i b.times e.1).drop n := by
  refine ⟨(((b.tail 0).insertIdx (min i b.size) e).length - b.capacity), ?_⟩
  rw [times, bars_insert, inserted, List.map_drop, tail_zero, insertAt, length_times, times]
  congr 1
  exact List.map_insertIdx ..

/-- A harmless upsert keeps the times sorted. -/
lemma sorted_upsertMessage (hs : sd.times.Pairwise (· < ·)) (h : Harmless sd retained candle openTime) :
    (upsertMessage sd retained candle openTime).1.times.Pairwise (· < ·) := by
  by_cases hstorable : Storable candle openTime
  · obtain ⟨o, ho⟩ := hstorable.exists_ohlcv
    by_cases ht : openTime ∈ sd.times
    · rw [upsertMessage_of_mem hs ht, replaceCandle_of_stored hstorable.1 ho, times_replace]
      · rwa [times_ensureWriteCapacity]
      · rw [times_ensureWriteCapacity]
        exact List.getElem?_idxOf ht
    by_cases hlater : sd.times ≠ [] ∧ ∀ a ∈ sd.times, a < openTime
    · rw [upsertMessage_of_later hs hlater.1 hlater.2, appendCandle_of_stored hstorable.1 ho]
      obtain ⟨n, hn⟩ := times_trim retained ((sd.ensureWriteCapacity retained).append (openTime, o))
      obtain ⟨m, hm⟩ := (sd.ensureWriteCapacity retained).times_append (openTime, o)
      have happended : (sd.times ++ [openTime]).Pairwise (· < ·) := by
        refine List.pairwise_append.mpr ⟨hs, List.pairwise_singleton .., fun a ha b hb => ?_⟩
        exact List.mem_singleton.mp hb ▸ hlater.2 a ha
      show (((sd.ensureWriteCapacity retained).append (openTime, o)).trim retained).times.Pairwise _
      rw [hn, hm, times_ensureWriteCapacity]
      exact (happended.sublist (List.drop_sublist ..)).sublist (List.drop_sublist ..)
    · rw [upsertMessage_of_between hs ht hlater, insertCandle_of_stored hstorable.1 ho]
      obtain ⟨n, hn⟩ := times_trim retained ((sd.ensureWriteCapacity retained).insert
        (bisectLeft sd.times openTime) (openTime, o))
      obtain ⟨m, hm⟩ := (sd.ensureWriteCapacity retained).times_insert
        (bisectLeft sd.times openTime) (openTime, o)
      show (((sd.ensureWriteCapacity retained).insert (bisectLeft sd.times openTime)
        (openTime, o)).trim retained).times.Pairwise _
      rw [hn, hm, times_ensureWriteCapacity]
      exact ((sorted_insertAt hs ht).sublist (List.drop_sublist ..)).sublist (List.drop_sublist ..)
  · have hintact := (upsertMessage_intact_iff hs retained candle openTime).mpr h
    rw [times, (hintact (upsertMessage_raises_iff.mpr hstorable)).bars]
    exact hs

end NumpyCandleBuffer

/-! ## The cache -/

namespace SharedCandleCache

variable (c : SharedCandleCache) (key : CacheKey) (candle : Entries)

/-- `candle.get("open_time", 0)` is a number below the baseline of the timeframe. -/
def messageBelowBaseline (tf : String) (candle : Entries) : Bool :=
  match c.warmupBaseline.get? tf, (candle.get? "open_time").getD (.int 0) with
  | some baseline, .int i => i < baseline
  | some baseline, .bool b => (if b then 1 else 0) < baseline
  | some baseline, .float x => x < .fin baseline
  | _, _ => false

/-- The open time under which `upsert_candle` writes; `none` where it returns before it writes, and an
error where `int` raises what it does not catch. -/
def writeTime : Except Json.IntError (Option ℤ) :=
  if c.messageBelowBaseline key.2 candle then .ok none
  else
    match ((candle.get? "open_time").getD ((candle.get? "time").getD (.int 0))).toInt with
    | .ok openTime =>
      .ok (if key.1 = "" ∨ key.2 = "" ∨ openTime ≤ 0 then none else some openTime)
    | .error .overflowError => .error .overflowError
    | .error _ => .ok none

/-- The buffer of a key; where there is none yet, the one that `upsert_candle` makes. -/
def bufferOf : NumpyCandleBuffer := (c.data.get? key).getD (.new (max 1 (c.retainedBars key)))

/-- `upsert_candle`: the cache it leaves, and whether it raised. -/
def upsertMessage : SharedCandleCache × Bool :=
  match c.writeTime key candle with
  | .error _ => (c, true)
  | .ok none => (c, false)
  | .ok (some openTime) =>
    let (sd, raised) :=
      (c.bufferOf key).upsertMessage (c.retainedBars key) candle openTime
    ({ c with data := c.data.set key sd }, raised)

/-- The message leaves the cache intact. -/
def HarmlessMessage : Prop :=
  ∀ openTime, c.writeTime key candle = .ok (some openTime) →
    (c.bufferOf key).Harmless (c.retainedBars key) candle openTime

/-- The open times of every buffer grow. -/
def Sorted : Prop := ∀ key, (c.bufferOf key).times.Pairwise (· < ·)

variable {c key candle}

lemma sorted_iff :
    c.Sorted ↔ ∀ key sd, c.data.get? key = some sd → sd.times.Pairwise (· < ·) := by
  constructor
  · intro h key sd hsd
    have hbuffer := h key
    rwa [bufferOf, hsd] at hbuffer
  · intro h key
    unfold bufferOf
    cases hsd : c.data.get? key with
    | none => exact List.Pairwise.nil
    | some sd => exact h key sd hsd

lemma bufferOf_set (sd : NumpyCandleBuffer) (k : CacheKey) :
    ({ c with data := c.data.set key sd } : SharedCandleCache).bufferOf k =
      if k = key then sd else c.bufferOf k := by
  unfold bufferOf
  dsimp only
  rw [Dict.get?_set]
  by_cases hk : k = key
  · rw [if_pos hk, if_pos hk]
    rfl
  · rw [if_neg hk, if_neg hk]
    rfl

/-- An upsert that raises leaves the size, the start and the bars of every buffer as they were when the
message is harmless, and only then. -/
theorem upsertMessage_intact_iff (hs : c.Sorted) (key : CacheKey) (candle : Entries) :
    ((c.upsertMessage key candle).2 = true →
      ∀ k, (c.bufferOf k).Same ((c.upsertMessage key candle).1.bufferOf k)) ↔
      c.HarmlessMessage key candle := by
  unfold upsertMessage HarmlessMessage
  match htime : c.writeTime key candle with
  | .error e => exact iff_of_true (fun _ _ => ⟨rfl, rfl, rfl⟩) nofun
  | .ok none => exact iff_of_true nofun nofun
  | .ok (some openTime) =>
    have hiff := NumpyCandleBuffer.upsertMessage_intact_iff (hs key) (c.retainedBars key) candle openTime
    constructor
    · intro hintact openTime' heq
      cases heq
      refine hiff.mp fun hraises => ?_
      have hsame := hintact hraises key
      rwa [bufferOf_set, if_pos rfl] at hsame
    · intro hharmless hraises k
      rw [bufferOf_set]
      by_cases hk : k = key
      · rw [if_pos hk, hk]
        exact hiff.mpr (hharmless openTime rfl) hraises
      · rw [if_neg hk]
        exact ⟨rfl, rfl, rfl⟩

/-! ## Runs -/

/-- What happens to the cache. -/
inductive MessageOp
  | upsert (key : CacheKey) (candle : Entries)
  | register (key : CacheKey) (warmupBars : ℤ) (retainBars : Option ℤ) (retainBufferBars : ℤ)
  | baseline (tf : String) (ts : ℤ)

def applyMessage (c : SharedCandleCache) : MessageOp → SharedCandleCache
  | .upsert key candle => (c.upsertMessage key candle).1
  | .register key warmupBars retainBars retainBufferBars =>
    c.registerDataRequirement key warmupBars retainBars retainBufferBars
  | .baseline tf ts => c.setWarmupBaseline tf ts

/-- The messages of the run are harmless where they come in. -/
def HarmlessOp (c : SharedCandleCache) : MessageOp → Prop
  | .upsert key candle => c.HarmlessMessage key candle
  | _ => True

lemma sorted_upsertMessage (hs : c.Sorted) (h : c.HarmlessMessage key candle) :
    (c.upsertMessage key candle).1.Sorted := by
  intro k
  unfold upsertMessage
  match htime : c.writeTime key candle with
  | .error e => exact hs k
  | .ok none => exact hs k
  | .ok (some openTime) =>
    dsimp only
    rw [bufferOf_set]
    split
    · exact NumpyCandleBuffer.sorted_upsertMessage (hs key) (h openTime htime)
    · exact hs k

lemma sorted_registerDataRequirement (hs : c.Sorted) (key : CacheKey) (warmupBars : ℤ)
    (retainBars : Option ℤ) (retainBufferBars : ℤ) :
    (c.registerDataRequirement key warmupBars retainBars retainBufferBars).Sorted := by
  rw [sorted_iff] at hs ⊢
  intro k sd hsd
  unfold registerDataRequirement at hsd
  dsimp only at hsd
  split at hsd
  · exact hs k sd hsd
  · rename_i sd' hsd'
    dsimp only at hsd
    rw [Dict.get?_set] at hsd
    split at hsd
    · -- the buffer of the key is grown and trimmed
      obtain ⟨n, hn⟩ := NumpyCandleBuffer.times_trim _ _
      rw [← Option.some.inj hsd, hn, NumpyCandleBuffer.times, NumpyCandleBuffer.bars_ensureCapacity]
      exact (hs key sd' hsd').sublist (List.drop_sublist ..)
    · exact hs k sd hsd

/-- While the messages are harmless the times stay sorted. -/
theorem applyMessage_sorted {ops : List MessageOp} (hs : c.Sorted)
    (hops : Along applyMessage HarmlessOp c ops) : (ops.foldl applyMessage c).Sorted := by
  induction ops generalizing c with
  | nil => exact hs
  | cons op ops ih =>
    refine ih ?_ hops.2
    match op, hops.1 with
    | .upsert key candle, hharmless => exact sorted_upsertMessage hs hharmless
    | .register key warmupBars retainBars retainBufferBars, _ =>
      exact sorted_registerDataRequirement hs key warmupBars retainBars retainBufferBars
    | .baseline tf ts, _ => exact hs

end SharedCandleCache

/-! ## Malformed candles -/

open Base (SymbolData)

/-- An upsert that raises leaves the lists of the engine, the buffer of the runner and the cache as they
were exactly when the message is harmless; while the messages of a run are harmless, the sequences stay
equally long and their times sorted. The times of the engine are sorted in every run. -/
theorem malformed_candle_iff (bars : List SymbolData.ListOp) (dataMaxCandlesFloor : ℕ)
    (messages : List SharedCandleCache.MessageOp) :
    (∀ (sd : SymbolData) (msg : Entries) (openTime : ℤ), sd.Sorted →
      (((sd.upsertCandle msg openTime).2 = true → (sd.upsertCandle msg openTime).1 = sd) ↔
        sd.Harmless msg openTime)) ∧
    (∀ (sd : NumpyCandleBuffer) (retained : ℕ) (candle : Entries) (openTime : ℤ),
      sd.times.Pairwise (· < ·) →
      (((sd.upsertMessage retained candle openTime).2 = true →
          sd.Same (sd.upsertMessage retained candle openTime).1) ↔
        sd.Harmless retained candle openTime)) ∧
    (∀ (c : SharedCandleCache) (key : CacheKey) (candle : Entries), c.Sorted →
      (((c.upsertMessage key candle).2 = true →
          ∀ k, (c.bufferOf k).Same ((c.upsertMessage key candle).1.bufferOf k)) ↔
        c.HarmlessMessage key candle)) ∧
    (bars.foldl SymbolData.apply {}).Sorted ∧
    (Along SymbolData.apply SymbolData.HarmlessOp {} bars → (bars.foldl SymbolData.apply {}).Aligned) ∧
    (Along SharedCandleCache.applyMessage SharedCandleCache.HarmlessOp { dataMaxCandlesFloor } messages →
      (messages.foldl SharedCandleCache.applyMessage { dataMaxCandlesFloor }).Sorted) :=
  have hempty : ({} : SymbolData).Sorted := List.Pairwise.nil
  ⟨fun _ msg openTime hs => SymbolData.upsertCandle_intact_iff hs msg openTime,
    fun _ retained candle openTime hs =>
      NumpyCandleBuffer.upsertMessage_intact_iff hs retained candle openTime,
    fun _ key candle hs => SharedCandleCache.upsertMessage_intact_iff hs key candle,
    SymbolData.apply_sorted hempty bars,
    SymbolData.apply_aligned ⟨hempty, fun f => by cases f <;> rfl⟩,
    SharedCandleCache.applyMessage_sorted fun _ => List.Pairwise.nil⟩

/-- A candle without numbers. -/
def bareCandle (openTime : ℤ) : Entries := [("open_time", .int openTime)]

/-- A candle whose close is no number. -/
def brokenCandle (openTime : ℤ) : Entries :=
  [("open_time", .int openTime), ("close", .str "n/a")]

/-- The broken candle raises; it leaves its time in the lists of the engine, which are torn, and a bar
in the buffer. -/
theorem brokenCandle_torn :
    (({} : SymbolData).upsertCandle (brokenCandle 60000) 60000).2 = true ∧
    (({} : SymbolData).upsertCandle (brokenCandle 60000) 60000).1.timeList = [60000] ∧
    (({} : SymbolData).upsertCandle (brokenCandle 60000) 60000).1.priceList = [] ∧
    (let c := (({} : SharedCandleCache).upsertMessage ("BTCUSDT", "1m") (bareCandle 60000)).1
     let w := c.upsertMessage ("BTCUSDT", "1m") (brokenCandle 120000)
     w.2 = true ∧ (c.bufferOf ("BTCUSDT", "1m")).size = 1 ∧
       (w.1.bufferOf ("BTCUSDT", "1m")).size = 2) := by
  decide +kernel

end PaperTrade.Runner
