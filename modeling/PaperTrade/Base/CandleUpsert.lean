import PaperTrade.Runtime.Along
import PaperTrade.Runtime.Bisect
import PaperTrade.Runtime.Json
import PaperTrade.Runtime.PartialStores

/-!
# Candles into the lists of an engine

`BaseEngine._upsert_candle` keeps the candles of a symbol in six parallel lists. It changes them one
after the other, and each number is converted just before its list changes, so a number that does not
convert leaves the lists before it changed. `upsertCandle_intact_iff` says when an upsert that raises
leaves all of them as they were: never when the candle opens a new bar, for the time is stored before
any number is read.

The lists of times are sorted in every state (`sorted_upsertCandle`), whatever raises; they are as long
as the five others while no upsert breaks them (`apply_aligned`).
-/

namespace PaperTrade.Base

open PaperTrade.Runtime

/-! ## The numbers of a candle -/

/-- The numbers of a candle. -/
inductive CandleField
  | «open»
  | high
  | low
  | close
  | volume
deriving DecidableEq

/-- The key of a number in a candle. -/
def CandleField.key : CandleField → String
  | .open => "open"
  | .high => "high"
  | .low => "low"
  | .close => "close"
  | .volume => "volume"

/-- The numbers in the order in which they are stored. -/
def candleFields : List CandleField := [.open, .high, .low, .close, .volume]

lemma mem_candleFields (f : CandleField) : f ∈ candleFields := by
  cases f <;> decide

lemma nodup_candleFields : candleFields.Nodup := by decide

/-- `float(v)`; `none` where it raises. -/
def floatOf : Json → Option PyFloat
  | .bool b => some (if b then 1 else 0)
  | .int i => some (.fin i)
  | .float x => some x
  | .str s => parseFloat s
  | _ => none

/-- `float(msg.get(key, 0.0))`. -/
def candleNumber (msg : Entries) (f : CandleField) : Option PyFloat :=
  floatOf ((msg.get? f.key).getD (.float 0))

/-! ## The lists -/

/-- `SymbolData`. -/
structure SymbolData where
  priceList : List PyFloat := []
  volumeList : List PyFloat := []
  highList : List PyFloat := []
  lowList : List PyFloat := []
  openList : List PyFloat := []
  timeList : List ℤ := []
deriving DecidableEq

namespace SymbolData

/-- The list of a number. -/
def column (sd : SymbolData) : CandleField → List PyFloat
  | .open => sd.openList
  | .high => sd.highList
  | .low => sd.lowList
  | .close => sd.priceList
  | .volume => sd.volumeList

def setColumn (sd : SymbolData) (f : CandleField) (l : List PyFloat) : SymbolData :=
  match f with
  | .open => { sd with openList := l }
  | .high => { sd with highList := l }
  | .low => { sd with lowList := l }
  | .close => { sd with priceList := l }
  | .volume => { sd with volumeList := l }

@[simp] lemma column_setColumn_same (sd : SymbolData) (f : CandleField) (l : List PyFloat) :
    (sd.setColumn f l).column f = l := by
  cases f <;> rfl

lemma column_setColumn_other (sd : SymbolData) {f g : CandleField} (h : g ≠ f) (l : List PyFloat) :
    (sd.setColumn f l).column g = sd.column g := by
  cases f <;> cases g <;> first | rfl | exact absurd rfl h

@[simp] lemma setColumn_self (sd : SymbolData) (f : CandleField) : sd.setColumn f (sd.column f) = sd := by
  cases f <;> rfl

@[simp] lemma timeList_setColumn (sd : SymbolData) (f : CandleField) (l : List PyFloat) :
    (sd.setColumn f l).timeList = sd.timeList := by
  cases f <;> rfl

/-- The numbers of the candle at an index. -/
def numbersAt (index : ℕ) : Cells SymbolData CandleField PyFloat where
  cell sd f := (sd.column f)[index]?
  put f x sd := sd.setColumn f ((sd.column f).set index x)
  cell_put_same f x sd h := by
    rw [column_setColumn_same, List.getElem?_set_self']
    obtain ⟨y, hy⟩ := Option.isSome_iff_exists.mp h
    rw [hy]
    rfl
  cell_put_other f g x sd h := by rw [column_setColumn_other sd h]
  put_self f x sd h := by
    obtain ⟨hlt, hx⟩ := List.getElem?_eq_some_iff.mp h
    rw [← hx, List.set_getElem_self, setColumn_self]

/-- `_replace_candle`. -/
def replaceCandle (sd : SymbolData) (index : ℕ) (msg : Entries) : SymbolData × Bool :=
  (numbersAt index).storeAll (candleNumber msg) candleFields sd

/-- Every list gets a number, in turn; the flag says that one of them raised. -/
def addNumbers (place : List PyFloat → PyFloat → List PyFloat) (msg : Entries) :
    List CandleField → SymbolData → SymbolData × Bool
  | [], sd => (sd, false)
  | f :: fs, sd =>
    match candleNumber msg f with
    | some x => addNumbers place msg fs (sd.setColumn f (place (sd.column f) x))
    | none => (sd, true)

/-- The candle is inserted at an index. -/
def insertCandle (sd : SymbolData) (index : ℕ) (msg : Entries) (openTime : ℤ) : SymbolData × Bool :=
  addNumbers (insertAt index) msg candleFields
    { sd with timeList := insertAt index sd.timeList openTime }

/-- `_upsert_candle`: the lists it leaves, and whether it raised. -/
def upsertCandle (sd : SymbolData) (msg : Entries) (openTime : ℤ) : SymbolData × Bool :=
  match sd.timeList.getLast? with
  | none => sd.insertCandle 0 msg openTime
  | some last =>
    if openTime = last then sd.replaceCandle (sd.timeList.length - 1) msg
    else if last < openTime then
      addNumbers (fun l x => l ++ [x]) msg candleFields
        { sd with timeList := sd.timeList ++ [openTime] }
    else
      let index := bisectLeft sd.timeList openTime
      if sd.timeList[index]? = some openTime then sd.replaceCandle index msg
      else sd.insertCandle index msg openTime

/-- `_trim_symbol_data`. -/
def trimSymbolData (sd : SymbolData) (maxCandles : ℤ) : SymbolData :=
  let overflow := sd.timeList.length - maxCandles
  if overflow ≤ 0 then sd
  else
    { priceList := sd.priceList.drop overflow.toNat
      volumeList := sd.volumeList.drop overflow.toNat
      highList := sd.highList.drop overflow.toNat
      lowList := sd.lowList.drop overflow.toNat
      openList := sd.openList.drop overflow.toNat
      timeList := sd.timeList.drop overflow.toNat }

/-! ## What the stores leave -/

section

variable {sd : SymbolData} {msg : Entries} {place : List PyFloat → PyFloat → List PyFloat}

lemma timeList_addNumbers (place : List PyFloat → PyFloat → List PyFloat) (msg : Entries)
    (fs : List CandleField) (sd : SymbolData) :
    (addNumbers place msg fs sd).1.timeList = sd.timeList := by
  induction fs generalizing sd with
  | nil => rfl
  | cons f fs ih =>
    unfold addNumbers
    split
    · rw [ih, timeList_setColumn]
    · rfl

/-- The stores raise when a number does not convert. -/
lemma addNumbers_snd (place : List PyFloat → PyFloat → List PyFloat) (msg : Entries)
    (fs : List CandleField) (sd : SymbolData) :
    (addNumbers place msg fs sd).2 = !fs.all fun f => (candleNumber msg f).isSome := by
  induction fs generalizing sd with
  | nil => rfl
  | cons f fs ih =>
    unfold addNumbers
    split
    · rename_i x hx
      rw [ih, List.all_cons, hx]
      rfl
    · rename_i hx
      rw [List.all_cons, hx]
      rfl

lemma column_addNumbers_other (place : List PyFloat → PyFloat → List PyFloat) (msg : Entries)
    {fs : List CandleField} {g : CandleField} (hg : g ∉ fs) (sd : SymbolData) :
    (addNumbers place msg fs sd).1.column g = sd.column g := by
  induction fs generalizing sd with
  | nil => rfl
  | cons f fs ih =>
    rw [List.mem_cons, not_or] at hg
    obtain ⟨hne, hrest⟩ := hg
    unfold addNumbers
    split
    · rw [ih hrest, column_setColumn_other _ hne]
    · rfl

/-- Without a failure every list has one number more. -/
lemma length_addNumbers (hplace : ∀ l x, (place l x).length = l.length + 1) {fs : List CandleField}
    (hfs : fs.Nodup) (hall : ∀ f ∈ fs, (candleNumber msg f).isSome) {f : CandleField} (hf : f ∈ fs) :
    ((addNumbers place msg fs sd).1.column f).length = (sd.column f).length + 1 := by
  induction fs generalizing sd with
  | nil => cases hf
  | cons g fs ih =>
    obtain ⟨hg, hfs⟩ := List.nodup_cons.mp hfs
    obtain ⟨x, hx⟩ := Option.isSome_iff_exists.mp (hall g List.mem_cons_self)
    unfold addNumbers
    rw [hx]
    dsimp only
    rcases List.mem_cons.mp hf with rfl | hf
    · rw [column_addNumbers_other place msg hg, column_setColumn_same, hplace]
    · have hne : f ≠ g := fun h => hg (h ▸ hf)
      rw [ih hfs (fun f' hf' => hall f' (List.mem_cons_of_mem _ hf')) hf,
        column_setColumn_other _ hne]

/-- A replacement keeps the times and the lengths. -/
lemma replaceCandle_keeps (index : ℕ) (msg : Entries) (sd : SymbolData) :
    (sd.replaceCandle index msg).1.timeList = sd.timeList ∧
      ∀ f, ((sd.replaceCandle index msg).1.column f).length = (sd.column f).length := by
  refine Cells.storeAll_keeps (P := fun sd' : SymbolData => sd'.timeList = sd.timeList ∧
    ∀ f, (sd'.column f).length = (sd.column f).length) (fun f x sd' h => ?_) ⟨rfl, fun _ => rfl⟩
  refine ⟨(timeList_setColumn ..).trans h.1, fun g => ?_⟩
  by_cases hg : g = f
  · subst hg
    show ((sd'.setColumn g _).column g).length = _
    rw [column_setColumn_same, List.length_set, h.2]
  · show ((sd'.setColumn f _).column g).length = _
    rw [column_setColumn_other _ hg, h.2]

end

/-! ## Where the candle goes -/

/-- The open times are sorted. -/
def Sorted (sd : SymbolData) : Prop := sd.timeList.Pairwise (· < ·)

instance (sd : SymbolData) : Decidable sd.Sorted :=
  inferInstanceAs (Decidable (sd.timeList.Pairwise _))

variable {sd : SymbolData} {msg : Entries} {openTime : ℤ}

/-- A candle of a bar that is there replaces it. -/
lemma upsertCandle_of_mem (hs : sd.Sorted) (ht : openTime ∈ sd.timeList) :
    sd.upsertCandle msg openTime = sd.replaceCandle (sd.timeList.idxOf openTime) msg := by
  obtain ⟨last, hlast⟩ : ∃ last, sd.timeList.getLast? = some last :=
    Option.isSome_iff_exists.mp (by simpa using List.ne_nil_of_mem ht)
  unfold upsertCandle
  rw [hlast]
  dsimp only
  by_cases heq : openTime = last
  · rw [if_pos heq, idxOf_last hs (heq ▸ hlast)]
  · have hle : ¬ last < openTime := not_lt.mpr (le_last hs hlast ht)
    have hfound : sd.timeList[bisectLeft sd.timeList openTime]? = some openTime := by
      rw [bisectLeft_of_mem hs ht]
      exact List.getElem?_idxOf ht
    rw [if_neg heq, if_neg hle, if_pos hfound, bisectLeft_of_mem hs ht]

/-- Another candle adds a bar: first its time, which keeps the times sorted, then its numbers. -/
lemma upsertCandle_of_not_mem (msg : Entries) (hs : sd.Sorted) (ht : openTime ∉ sd.timeList) :
    ∃ (place : List PyFloat → PyFloat → List PyFloat) (times : List ℤ),
      (∀ l x, (place l x).length = l.length + 1) ∧ times.Pairwise (· < ·) ∧
      times.length = sd.timeList.length + 1 ∧
      sd.upsertCandle msg openTime =
        addNumbers place msg candleFields { sd with timeList := times } := by
  have hinsert (index : ℕ) (hindex : index = bisectLeft sd.timeList openTime)
      (h : sd.upsertCandle msg openTime = sd.insertCandle index msg openTime) :
      ∃ (place : List PyFloat → PyFloat → List PyFloat) (times : List ℤ),
        (∀ l x, (place l x).length = l.length + 1) ∧ times.Pairwise (· < ·) ∧
        times.length = sd.timeList.length + 1 ∧
        sd.upsertCandle msg openTime =
          addNumbers place msg candleFields { sd with timeList := times } :=
    ⟨insertAt index, insertAt index sd.timeList openTime, length_insertAt index,
      hindex ▸ sorted_insertAt hs ht, length_insertAt index _ _, h⟩
  match hlast : sd.timeList.getLast? with
  | none =>
    have hempty : sd.timeList = [] := List.getLast?_eq_none_iff.mp hlast
    refine hinsert 0 (by rw [hempty]; rfl) ?_
    rw [upsertCandle, hlast]
  | some last =>
    have hne : openTime ≠ last := fun h => ht (h ▸ List.mem_of_getLast? hlast)
    by_cases hlater : last < openTime
    · refine ⟨fun l x => l ++ [x], sd.timeList ++ [openTime], fun l x => by simp, ?_, by simp, ?_⟩
      · refine List.pairwise_append.mpr ⟨hs, List.pairwise_singleton .., fun a ha b hb => ?_⟩
        rw [List.mem_singleton.mp hb]
        exact (le_last hs hlast ha).trans_lt hlater
      · rw [upsertCandle, hlast]
        dsimp only
        rw [if_neg hne, if_pos hlater]
    · refine hinsert _ rfl ?_
      rw [upsertCandle, hlast]
      dsimp only
      rw [if_neg hne, if_neg hlater, if_neg (bisectLeft_of_not_mem ht)]

/-! ## Upserts that raise -/

/-- The message leaves the lists intact: all of it is stored, or it replaces a bar and repeats the
numbers of the bar up to the first that cannot be stored. -/
def Harmless (sd : SymbolData) (msg : Entries) (openTime : ℤ) : Prop :=
  if openTime ∈ sd.timeList then
    let stored := (numbersAt (sd.timeList.idxOf openTime)).Writes (candleNumber msg) sd
    (∀ f ∈ candleFields, stored f = true) ∨
      ∀ f ∈ candleFields.takeWhile stored,
        (sd.column f)[sd.timeList.idxOf openTime]? = candleNumber msg f
  else ∀ f, (candleNumber msg f).isSome

/-- The times stay sorted, whatever raises. -/
theorem sorted_upsertCandle (hs : sd.Sorted) (msg : Entries) (openTime : ℤ) :
    (sd.upsertCandle msg openTime).1.Sorted := by
  unfold Sorted
  by_cases ht : openTime ∈ sd.timeList
  · rw [upsertCandle_of_mem hs ht, (replaceCandle_keeps ..).1]
    exact hs
  · obtain ⟨place, times, -, htimes, -, heq⟩ := upsertCandle_of_not_mem msg hs ht
    rw [heq, timeList_addNumbers]
    exact htimes

/-- An upsert that raises leaves the lists as they were when the message is harmless, and only then. -/
theorem upsertCandle_intact_iff (hs : sd.Sorted) (msg : Entries) (openTime : ℤ) :
    ((sd.upsertCandle msg openTime).2 = true → (sd.upsertCandle msg openTime).1 = sd) ↔
      sd.Harmless msg openTime := by
  unfold Harmless
  by_cases ht : openTime ∈ sd.timeList
  · rw [if_pos ht, upsertCandle_of_mem hs ht]
    exact Cells.storeAll_intact_iff nodup_candleFields sd
  · rw [if_neg ht]
    obtain ⟨place, times, -, -, hlength, heq⟩ := upsertCandle_of_not_mem msg hs ht
    rw [heq, addNumbers_snd]
    constructor
    · intro hintact
      by_contra hfails
      have hraises : (!candleFields.all fun f => (candleNumber msg f).isSome) = true := by
        rw [Bool.not_eq_true', List.all_eq_false]
        obtain ⟨f, hf⟩ := not_forall.mp hfails
        exact ⟨f, mem_candleFields f, hf⟩
      -- the time is in, and one list is longer
      have htimes := congrArg (fun sd' : SymbolData => sd'.timeList.length) (hintact hraises)
      rw [timeList_addNumbers] at htimes
      exact absurd (hlength.symm.trans htimes) (Nat.succ_ne_self _)
    · intro hall hraises
      have hstored : candleFields.all (fun f => (candleNumber msg f).isSome) = true :=
        List.all_eq_true.mpr fun f _ => hall f
      rw [hstored] at hraises
      cases hraises

/-! ## Runs -/

/-- The five lists are as long as that of the times, and the times are sorted. -/
def Aligned (sd : SymbolData) : Prop :=
  sd.Sorted ∧ ∀ f, (sd.column f).length = sd.timeList.length

/-- A harmless upsert keeps the lists aligned. -/
lemma aligned_upsertCandle (h : sd.Aligned) (hharmless : sd.Harmless msg openTime) :
    (sd.upsertCandle msg openTime).1.Aligned := by
  refine ⟨sorted_upsertCandle h.1 msg openTime, fun f => ?_⟩
  unfold Harmless at hharmless
  by_cases ht : openTime ∈ sd.timeList
  · obtain ⟨htimes, hlengths⟩ := replaceCandle_keeps (sd.timeList.idxOf openTime) msg sd
    rw [upsertCandle_of_mem h.1 ht, htimes, hlengths, h.2]
  · rw [if_neg ht] at hharmless
    obtain ⟨place, times, hplace, -, hlength, heq⟩ := upsertCandle_of_not_mem msg h.1 ht
    have hadded : ((addNumbers place msg candleFields { sd with timeList := times }).1.column f).length =
        (sd.column f).length + 1 :=
      length_addNumbers hplace nodup_candleFields (fun f _ => hharmless f) (mem_candleFields f)
    rw [heq, timeList_addNumbers, hadded, h.2, hlength]

lemma column_trimSymbolData (sd : SymbolData) (maxCandles : ℤ) (f : CandleField) :
    (sd.trimSymbolData maxCandles).column f =
      (sd.column f).drop (sd.timeList.length - maxCandles).toNat := by
  unfold trimSymbolData
  dsimp only
  split
  · rename_i hfits
    rw [Int.toNat_of_nonpos hfits, List.drop_zero]
  · cases f <;> rfl

lemma timeList_trimSymbolData (sd : SymbolData) (maxCandles : ℤ) :
    (sd.trimSymbolData maxCandles).timeList =
      sd.timeList.drop (sd.timeList.length - maxCandles).toNat := by
  unfold trimSymbolData
  dsimp only
  split
  · rename_i hfits
    rw [Int.toNat_of_nonpos hfits, List.drop_zero]
  · rfl

lemma aligned_trimSymbolData (h : sd.Aligned) (maxCandles : ℤ) :
    (sd.trimSymbolData maxCandles).Aligned := by
  refine ⟨?_, fun f => ?_⟩
  · unfold Sorted
    rw [timeList_trimSymbolData]
    exact h.1.sublist (List.drop_sublist _ _)
  · rw [column_trimSymbolData, timeList_trimSymbolData, List.length_drop, List.length_drop, h.2]

/-- What happens to the lists of a symbol. -/
inductive ListOp
  | upsert (msg : Entries) (openTime : ℤ)
  | trim (maxCandles : ℤ)

def apply (sd : SymbolData) : ListOp → SymbolData
  | .upsert msg openTime => (sd.upsertCandle msg openTime).1
  | .trim maxCandles => sd.trimSymbolData maxCandles

/-- In every run the times are sorted. -/
theorem apply_sorted (h : sd.Sorted) (ops : List ListOp) : (ops.foldl apply sd).Sorted := by
  induction ops generalizing sd with
  | nil => exact h
  | cons op ops ih =>
    refine ih ?_
    cases op with
    | upsert msg openTime => exact sorted_upsertCandle h msg openTime
    | trim maxCandles =>
      show (sd.trimSymbolData maxCandles).timeList.Pairwise _
      rw [timeList_trimSymbolData]
      exact h.sublist (List.drop_sublist ..)

/-- The messages of the run are harmless where they come in. -/
def HarmlessOp (sd : SymbolData) : ListOp → Prop
  | .upsert msg openTime => sd.Harmless msg openTime
  | .trim _ => True

/-- While the messages are harmless the lists stay aligned. -/
theorem apply_aligned {ops : List ListOp} (h : sd.Aligned) (hops : Along apply HarmlessOp sd ops) :
    (ops.foldl apply sd).Aligned := by
  induction ops generalizing sd with
  | nil => exact h
  | cons op ops ih =>
    refine ih ?_ hops.2
    match op, hops.1 with
    | .upsert msg openTime, hharmless => exact aligned_upsertCandle h hharmless
    | .trim maxCandles, _ => exact aligned_trimSymbolData h maxCandles

end SymbolData

end PaperTrade.Base
