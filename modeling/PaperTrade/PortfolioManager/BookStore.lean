import PaperTrade.PortfolioManager.Blend
import PaperTrade.Runtime.JsonSpelling
import PaperTrade.Worker.VirtualLedger

/-!
# `TargetBookStore`

A sleeve publishes its target book as JSON under its own key, and the portfolio reads the latest one. What is
read of a sleeve is its last book that was accepted, whatever the other sleeves publish (`read_publishAll`).
-/

namespace PaperTrade.PortfolioManager.BookStore

open PaperTrade.Runtime PaperTrade.Worker

/-! ## `TargetBook` -/

/-- A number as Python has it: the sum of no floats is the integer 0. -/
inductive Num
  | int (i : ℤ)
  | float (x : PyFloat)

namespace Num

/-- `float(n)`. -/
def value : Num → PyFloat
  | int i => .fin i
  | float x => x

def json : Num → Json
  | int i => .int i
  | float x => .float x

/-- `sum(xs)`. -/
def sum : List PyFloat → Num
  | [] => int 0
  | xs => float (xs.foldl (· + ·) 0)

end Num

/-- The fields of a `TargetBook`. -/
structure BookFields where
  sleeveId : String
  revision : ℤ
  generatedAt : String
  asOfCandleMs : ℤ
  timeframe : String
  gross : Num
  net : Num
  weights : Dict String PyFloat
  schemaVersion : ℤ := 1
  extra : Entries := []

inductive BookError
  /-- `sleeve_id is required` -/
  | sleeveIdRequired
  /-- `revision must be non-negative` -/
  | negativeRevision
  /-- `as_of_candle_ms must be non-negative` -/
  | negativeCandle
  /-- `timeframe is required` -/
  | timeframeRequired
  /-- `invalid weight for …` -/
  | invalidWeight (symbol : String)
  /-- `gross must be finite and non-negative` -/
  | gross
  /-- `net must be finite` -/
  | net
  /-- `target book missing fields: …` -/
  | missing (keys : List String)
  /-- `Out of range float values are not JSON compliant` -/
  | notCompliant
  /-- a `JSONDecodeError` -/
  | decode
  | raised (e : PyError)

/-- A weight that `__post_init__` refuses. -/
def invalidWeight (e : String × PyFloat) : Bool := e.1 = "" || !e.2.isFinite

/-- `__post_init__`. -/
def BookFields.check (f : BookFields) : Except BookError Unit :=
  if f.sleeveId = "" then .error .sleeveIdRequired
  else if f.revision < 0 then .error .negativeRevision
  else if f.asOfCandleMs < 0 then .error .negativeCandle
  else if f.timeframe = "" then .error .timeframeRequired
  else match f.weights.rows.find? invalidWeight with
    | some e => .error (.invalidWeight e.1)
    | none =>
      if !f.gross.value.isFinite ∨ f.gross.value < 0 then .error .gross
      else if !f.net.value.isFinite then .error .net
      else .ok ()

/-- `TargetBook`: fields that the check has passed. -/
structure TargetBook extends BookFields where
  checked : toBookFields.check = .ok ()

/-- The constructor of `TargetBook`. -/
def TargetBook.mk? (f : BookFields) : Except BookError TargetBook :=
  match h : f.check with
  | .ok () => .ok ⟨f, h⟩
  | .error e => .error e

/-- The arguments of `TargetBook.create`, and the time for a call without one. -/
structure CreateCall where
  sleeveId : String
  timeframe : String
  weights : Dict String PyFloat
  revision : ℤ
  asOfCandleMs : ℤ
  generatedAt : Option String := none
  now : String
  extra : Entries := []

/-- The fields that `TargetBook.create` passes on. -/
def CreateCall.fields (c : CreateCall) : BookFields :=
  let clean := c.weights.filter fun e => e.2 ≠ 0
  { sleeveId := c.sleeveId
    revision := c.revision
    generatedAt := ((c.generatedAt.filter (· ≠ "")).getD c.now)
    asOfCandleMs := c.asOfCandleMs
    timeframe := c.timeframe
    gross := .sum (clean.rows.map fun e => e.2.abs)
    net := .sum (clean.rows.map fun e => e.2)
    weights := clean
    extra := c.extra }

/-- `TargetBook.create`. -/
def CreateCall.create (c : CreateCall) : Except BookError TargetBook := TargetBook.mk? c.fields

/-! ## JSON -/

/-- `to_dict`. -/
def BookFields.toDict (f : BookFields) : Entries :=
  [("schema_version", .int f.schemaVersion), ("sleeve_id", .str f.sleeveId), ("revision", .int f.revision),
   ("generated_at", .str f.generatedAt), ("as_of_candle_ms", .int f.asOfCandleMs),
   ("timeframe", .str f.timeframe), ("gross", f.gross.json), ("net", f.net.json),
   ("weights", .obj (f.weights.rows.map fun e => (e.1, .float e.2))), ("meta", .obj f.extra)]

mutual

/-- `allow_nan=False` refuses a value with a NaN or an infinity. -/
def compliant : Json → Bool
  | .float x => x.isFinite
  | .arr items => compliantItems items
  | .obj entries => compliantEntries entries
  | _ => true

def compliantItems : List Json → Bool
  | [] => true
  | v :: items => compliant v && compliantItems items

def compliantEntries : List (String × Json) → Bool
  | [] => true
  | (_, v) :: entries => compliant v && compliantEntries entries

end

/-- `to_json`. -/
def BookFields.toJson (f : BookFields) : Except BookError (List Char) :=
  if compliant (.obj f.toDict) then .ok (Json.spell Json.compact (Json.sortKeys (.obj f.toDict)))
  else .error .notCompliant

/-- `{str(symbol): float(value) for symbol, value in dict(raw["weights"]).items()}`. -/
def readWeights (entries : Entries) : Except BookError (Dict String PyFloat) :=
  entries.foldlM (fun weights e => do return weights.set e.1 (← (jsonFloat e.2).mapError .raised)) .empty

/-- The entries of a `dict`. -/
def dictOf : Json → Except BookError Entries
  | .obj entries => .ok entries
  | _ => .error (.raised .typeError)

def intOf (v : Json) : Except BookError ℤ := v.toInt.mapError fun e => .raised (.intOf e)

/-- `float(raw.get(key, default))`. -/
def floatOr (raw : Entries) (key : String) (other : Num) : Except BookError PyFloat :=
  match raw.get? key with
  | some v => (jsonFloat v).mapError .raised
  | none => .ok other.value

/-- `dict(raw.get("meta") or {})`. -/
def metaOf (raw : Entries) : Except BookError Entries :=
  match (raw.get? "meta").filter Json.truthy with
  | some v => dictOf v
  | none => .ok []

def requiredFields : List String :=
  ["sleeve_id", "revision", "generated_at", "as_of_candle_ms", "timeframe", "weights"]

/-- `from_dict`. -/
def fromDict (raw : Entries) : Except BookError TargetBook := do
  let missing := requiredFields.filter fun key => (raw.get? key).isNone
  if missing ≠ [] then .error (.missing missing)
  let field := fun key => (raw.get? key).getD .null
  let weights ← readWeights (← dictOf (field "weights"))
  let gross ← floatOr raw "gross" (.sum (weights.rows.map fun e => e.2.abs))
  let net ← floatOr raw "net" (.sum (weights.rows.map fun e => e.2))
  let schemaVersion ← intOf ((raw.get? "schema_version").getD (.int 1))
  let revision ← intOf (field "revision")
  let asOfCandleMs ← intOf (field "as_of_candle_ms")
  let extra ← metaOf raw
  TargetBook.mk? ⟨strOf (field "sleeve_id"), revision, strOf (field "generated_at"), asOfCandleMs,
    strOf (field "timeframe"), .float gross, .float net, weights, schemaVersion, extra⟩

/-- `from_json`. -/
def fromJson (text : List Char) : Except BookError TargetBook :=
  match Json.parse text with
  | none => .error .decode
  | some (.obj raw) => fromDict raw
  | some _ => .error (.raised .typeError)

/-! ## The store -/

/-- Redis as the store uses it: the strings, and what was published on the channels. -/
structure TargetBookStore where
  values : Dict String (List Char)
  published : List (String × String)

namespace TargetBookStore

def empty : TargetBookStore := ⟨.empty, []⟩

/-- `BOOK_KEY_PREFIX`. -/
def key (sleeveId : String) : String := "book:target:" ++ sleeveId

/-- `BOOK_CHANNEL_PREFIX`. -/
def channel (sleeveId : String) : String := "book:updated:" ++ sleeveId

/-- `write`. -/
def write (store : TargetBookStore) (book : TargetBook) : Except BookError TargetBookStore := do
  let text ← book.toJson
  pure ⟨store.values.set (key book.sleeveId) text,
    store.published ++ [(channel book.sleeveId, toString book.revision)]⟩

/-- `read`. -/
def read (store : TargetBookStore) (sleeveId : String) : Except BookError (Option TargetBook) :=
  match store.values.get? (key sleeveId) with
  | none => .ok none
  | some text => (fromJson text).map some

/-- A sleeve creates a book and writes it; an exception leaves the store as it is. -/
def publish (store : TargetBookStore) (c : CreateCall) : TargetBookStore :=
  match c.create >>= store.write with
  | .ok store => store
  | .error _ => store

def publishAll (store : TargetBookStore) (cs : List CreateCall) : TargetBookStore := cs.foldl publish store

end TargetBookStore

/-! ## What is read back -/

/-- The fields as they are read back: the mappings in the order of their keys, the sums as floats. -/
def BookFields.asRead (f : BookFields) : BookFields :=
  { f with
    gross := .float f.gross.value
    net := .float f.net.value
    weights := f.weights.sorted
    extra := (Json.sortValues f.extra).insertionSort fun e f => e.1 ≤ f.1 }

lemma check_ok_iff {f : BookFields} : f.check = .ok () ↔ f.sleeveId ≠ "" ∧ 0 ≤ f.revision ∧
    0 ≤ f.asOfCandleMs ∧ f.timeframe ≠ "" ∧ (∀ e ∈ f.weights.rows, ¬ invalidWeight e = true) ∧
      f.gross.value.isFinite = true ∧ ¬ f.gross.value < 0 ∧ f.net.value.isFinite = true := by
  unfold BookFields.check
  rw [← List.find?_eq_none]
  split_ifs with hid hrevision hcandle htimeframe hgross hnet
  · simp [hid]
  · simp [hrevision]
  · simp [hcandle]
  · simp [htimeframe]
  all_goals cases hfind : f.weights.rows.find? invalidWeight <;> simp_all
  rcases hgross with h | h <;> simp_all

/-- The order of the weights does not decide whether one of them is refused. -/
lemma check_asRead {f : BookFields} (h : f.check = .ok ()) : f.asRead.check = .ok () := by
  obtain ⟨hid, hrevision, hcandle, htimeframe, hweights, hgross, hpos, hnet⟩ := check_ok_iff.mp h
  exact check_ok_iff.mpr ⟨hid, hrevision, hcandle, htimeframe,
    fun e he => hweights e (f.weights.perm_sorted.mem_iff.mp he), hgross, hpos, hnet⟩

def TargetBook.asRead (b : TargetBook) : TargetBook := ⟨b.toBookFields.asRead, check_asRead b.checked⟩

lemma TargetBook.mk?_fields (b : TargetBook) : TargetBook.mk? b.toBookFields = .ok b := by
  obtain ⟨f, hf⟩ := b
  unfold TargetBook.mk?
  split
  · rfl
  · rename_i e he
    rw [hf] at he
    cases he

section RoundTrip

variable {f : BookFields} {d : Dict String PyFloat}

lemma nodup_toDict (f : BookFields) : (f.toDict.map Prod.fst).Nodup := by simp [BookFields.toDict]

/-- Numbers that a spelling determines. -/
structure BookFields.Numbers (f : BookFields) : Prop where
  gross : f.gross.value.Decimal
  net : f.net.value.Decimal
  weights : ∀ e ∈ f.weights.rows, e.2.Decimal
  extra : Json.Spellable (.obj f.extra)

lemma spellable_num {n : Num} (h : n.value.Decimal) : Json.Spellable n.json := by
  cases n with
  | int i => trivial
  | float x =>
    rw [Num.json, Json.Spellable]
    exact h

/-- The entries of the weights. -/
def weightEntries (d : Dict String PyFloat) : Entries := d.rows.map fun e => (e.1, .float e.2)

lemma map_fst_weightEntries (d : Dict String PyFloat) : (weightEntries d).map Prod.fst = d.keys := by
  rw [weightEntries, List.map_map]
  rfl

lemma spellable_toDict (h : f.Numbers) : Json.Spellable (.obj f.toDict) := by
  have hweights : Json.Spellable (.obj (weightEntries f.weights)) := by
    refine ⟨map_fst_weightEntries f.weights ▸ f.weights.nodup_keys, ?_⟩
    rw [Json.spellableEntries_iff]
    intro e he
    obtain ⟨w, hw, rfl⟩ := List.mem_map.mp he
    simpa [Json.Spellable] using h.weights w hw
  refine ⟨nodup_toDict f, ?_⟩
  rw [Json.spellableEntries_iff]
  simp only [BookFields.toDict, List.forall_mem_cons, List.not_mem_nil, false_implies, implies_true,
    and_true]
  exact ⟨trivial, trivial, trivial, trivial, trivial, trivial, spellable_num h.gross, spellable_num h.net,
    hweights, h.extra⟩

lemma sortValues_weightEntries (d : Dict String PyFloat) :
    Json.sortValues (weightEntries d) = weightEntries d := by
  unfold weightEntries
  induction d.rows with
  | nil => rfl
  | cons e rows ih =>
    show (e.1, Json.sortKeys (.float e.2)) :: Json.sortValues (rows.map _) = _
    rw [ih]
    rfl

/-- The weights are written in the order of their symbols. -/
lemma sortKeys_weightEntries (d : Dict String PyFloat) :
    Json.sortKeys (.obj (weightEntries d)) = .obj (weightEntries d.sorted) := by
  rw [Json.sortKeys, sortValues_weightEntries]
  exact congrArg Json.obj (List.map_insertionSort _ _ (fun e : String × PyFloat => (e.1, Json.float e.2))
    d.rows fun _ _ _ _ => Iff.rfl).symm

lemma readWeights_weightEntries (d : Dict String PyFloat) : readWeights (weightEntries d) = .ok d := by
  have hfold : ∀ (rows : List (String × PyFloat)) (acc : Dict String PyFloat),
      ((acc.rows ++ rows).map Prod.fst).Nodup → ∃ r : Dict String PyFloat, r.rows = acc.rows ++ rows ∧
        (rows.map fun e : String × PyFloat => (e.1, Json.float e.2)).foldlM
          (fun weights e => do return weights.set e.1 (← (jsonFloat e.2).mapError BookError.raised)) acc =
            .ok r := by
    intro rows
    induction rows with
    | nil => exact fun acc _ => ⟨acc, by simp, rfl⟩
    | cons e rows ih =>
      intro acc hnodup
      have hfresh : acc.contains e.1 = false := by
        rw [Table.not_contains_iff]
        intro p hp hkey
        rw [List.map_append, List.map_cons] at hnodup
        exact (List.nodup_append.mp hnodup).2.2 p.1 (List.mem_map.mpr ⟨p, hp, rfl⟩) e.1
          List.mem_cons_self hkey
      have hrows : (acc.set e.1 e.2).rows = acc.rows ++ [e] := Dict.rows_set_of_not_contains hfresh e.2
      obtain ⟨r, hr, hread⟩ := ih (acc.set e.1 e.2) (by rw [hrows]; simpa using hnodup)
      refine ⟨r, by rw [hr, hrows]; simp, ?_⟩
      rw [List.map_cons, List.foldlM_cons]
      exact hread
  obtain ⟨r, hr, hread⟩ := hfold d.rows .empty d.nodup_keys
  obtain rfl : r = d := Table.ext (by simpa using hr)
  exact hread

/-- The row as it is read back. -/
def sortedDict (f : BookFields) : Entries :=
  (Json.sortValues f.toDict).insertionSort fun e f => e.1 ≤ f.1

lemma get?_sortedDict {key : String} {v : Json} (h : f.toDict.get? key = some v) :
    (sortedDict f).get? key = some (Json.sortKeys v) :=
  Json.get?_sorted (nodup_toDict f) h

lemma floatOr_num {raw : Entries} {key : String} {n other : Num}
    (h : raw.get? key = some (Json.sortKeys n.json)) : floatOr raw key other = .ok n.value := by
  rw [floatOr, h]
  cases n <;> rfl

/-- The `dict` of a book is read as the book. -/
lemma fromDict_sortedDict (b : TargetBook) : fromDict (sortedDict b.toBookFields) = .ok b.asRead := by
  obtain ⟨f, hf⟩ := b
  show fromDict (sortedDict f) = .ok ⟨f.asRead, check_asRead hf⟩
  have hget : ∀ key v, f.toDict.get? key = some v → (sortedDict f).get? key = some (Json.sortKeys v) :=
    fun _ _ h => get?_sortedDict h
  have hschema := hget "schema_version" (.int f.schemaVersion) rfl
  have hid := hget "sleeve_id" (.str f.sleeveId) rfl
  have hrevision := hget "revision" (.int f.revision) rfl
  have hgenerated := hget "generated_at" (.str f.generatedAt) rfl
  have hcandle := hget "as_of_candle_ms" (.int f.asOfCandleMs) rfl
  have htimeframe := hget "timeframe" (.str f.timeframe) rfl
  have hweights := hget "weights" (.obj (weightEntries f.weights)) rfl
  rw [sortKeys_weightEntries] at hweights
  have hmissing : requiredFields.filter (fun key => ((sortedDict f).get? key).isNone) = [] := by
    rw [List.filter_eq_nil_iff]
    intro key hkey
    simp only [requiredFields, List.mem_cons, List.not_mem_nil, or_false] at hkey
    rcases hkey with rfl | rfl | rfl | rfl | rfl | rfl <;>
      simp [hid, hrevision, hgenerated, hcandle, htimeframe, hweights]
  have hmeta : metaOf (sortedDict f) = .ok f.asRead.extra := by
    rw [metaOf, hget "meta" (.obj f.extra) rfl]
    show (match (some (Json.obj f.asRead.extra)).filter Json.truthy with | some v => _ | none => _) = _
    cases f.asRead.extra <;> rfl
  unfold fromDict
  simp only [hmissing, ne_eq, not_true_eq_false, if_false, hweights, Option.getD_some, hmeta,
    floatOr_num (hget "gross" f.gross.json rfl), floatOr_num (hget "net" f.net.json rfl), hschema,
    hrevision, hcandle, hid, hgenerated, htimeframe]
  show (readWeights (weightEntries f.weights.sorted) >>= fun weights => _) = _
  rw [readWeights_weightEntries]
  exact TargetBook.mk?_fields ⟨f.asRead, check_asRead hf⟩

/-- What was written of a book is read as the book. -/
lemma fromJson_spell (b : TargetBook) (h : b.Numbers) :
    fromJson (Json.spell Json.compact (Json.sortKeys (.obj b.toDict))) = .ok b.asRead := by
  have hparse := Json.parse_spell Json.blank_compact (Json.spellable_sortKeys _ (spellable_toDict h))
  unfold fromJson
  rw [hparse]
  exact fromDict_sortedDict b

end RoundTrip

/-! ## Runs -/

/-- Arguments whose numbers a spelling determines. -/
structure CreateCall.Numbers (c : CreateCall) : Prop where
  weights : ∀ e ∈ c.weights.rows, e.2.Decimal
  extra : Json.Spellable (.obj c.extra)

/-- The book that a call writes, if it writes one. -/
def CreateCall.accepted (c : CreateCall) : Option TargetBook :=
  match c.create with
  | .ok b => if compliant (.obj b.toDict) then some b else none
  | .error _ => none

/-- The last book of a sleeve that was written. -/
def latest (cs : List CreateCall) (sleeveId : String) : Option TargetBook :=
  (cs.filterMap CreateCall.accepted).reverse.find? fun b => b.sleeveId = sleeveId

section Runs

variable {c : CreateCall} {cs : List CreateCall} {b : TargetBook} {store : TargetBookStore}

lemma decimal_add {x y : PyFloat} (hx : x.Decimal) (hy : y.Decimal) : (x + y).Decimal := by
  cases x with
  | nan => trivial
  | inf s =>
    cases y with
    | nan => trivial
    | fin q => trivial
    | inf t =>
      show (if s = t then PyFloat.inf s else .nan).Decimal
      split <;> trivial
  | fin p =>
    cases y with
    | nan => trivial
    | inf t => trivial
    | fin q => exact hx.add hy

lemma decimal_sum {xs : List PyFloat} (h : ∀ x ∈ xs, x.Decimal) : (Num.sum xs).value.Decimal := by
  have hfold : ∀ (xs : List PyFloat) (acc : PyFloat), acc.Decimal → (∀ x ∈ xs, x.Decimal) →
      (xs.foldl (· + ·) acc).Decimal := by
    intro xs
    induction xs with
    | nil => exact fun _ hacc _ => hacc
    | cons x xs ih =>
      intro acc hacc h
      exact ih _ (decimal_add hacc (h x List.mem_cons_self)) fun y hy => h y (List.mem_cons_of_mem _ hy)
  cases xs with
  | nil => exact PyFloat.Decimal.intCast 0
  | cons x xs => exact hfold (x :: xs) 0 (PyFloat.Decimal.intCast 0) h

/-- The sums of such weights are such numbers. -/
lemma CreateCall.Numbers.fields (h : c.Numbers) : c.fields.Numbers := by
  have hclean : ∀ e ∈ c.fields.weights.rows, e.2.Decimal := fun e he =>
    h.weights e (List.mem_filter.mp he).1
  refine ⟨decimal_sum fun x hx => ?_, decimal_sum fun x hx => ?_, hclean, h.extra⟩
  · obtain ⟨e, he, rfl⟩ := List.mem_map.mp hx
    have hdecimal := hclean e he
    cases hvalue : e.2 with
    | nan => trivial
    | inf s => trivial
    | fin q =>
      rw [hvalue] at hdecimal
      exact hdecimal.abs
  · obtain ⟨e, he, rfl⟩ := List.mem_map.mp hx
    exact hclean e he

lemma fields_of_accepted (h : c.accepted = some b) :
    b.toBookFields = c.fields ∧ compliant (.obj b.toDict) = true := by
  unfold CreateCall.accepted CreateCall.create TargetBook.mk? at h
  split at h
  · rename_i b' hcreate
    split at hcreate
    · cases hcreate
      split at h
      · rename_i hcompliant
        cases h
        exact ⟨rfl, hcompliant⟩
      · cases h
    · cases hcreate
  · cases h

namespace TargetBookStore

/-- A call that is accepted writes its book, and no other changes the store. -/
lemma publish_eq (store : TargetBookStore) (c : CreateCall) : store.publish c =
    match c.accepted with
    | some b => ⟨store.values.set (key b.sleeveId)
        (Json.spell Json.compact (Json.sortKeys (.obj b.toDict))),
        store.published ++ [(channel b.sleeveId, toString b.revision)]⟩
    | none => store := by
  unfold publish CreateCall.accepted
  cases c.create with
  | error e => rfl
  | ok b =>
    show (match (b.toJson >>= fun text => _) with | .ok store => store | .error _ => store) = _
    unfold BookFields.toJson
    by_cases h : compliant (.obj b.toDict) = true
    · simp only [h, if_true]
      rfl
    · simp only [h, if_false]
      rfl

lemma key_inj {a b : String} : key a = key b ↔ a = b := String.append_right_inj _

/-- The strings of the store are the last books. -/
lemma get?_publishAll (cs : List CreateCall) (sleeveId : String) :
    (publishAll .empty cs).values.get? (key sleeveId) = (latest cs sleeveId).map fun b =>
      Json.spell Json.compact (Json.sortKeys (.obj b.toDict)) := by
  induction cs using List.reverseRecOn with
  | nil => rfl
  | append_singleton cs c ih =>
    have hrun : publishAll .empty (cs ++ [c]) = (publishAll .empty cs).publish c := by
      rw [publishAll, List.foldl_append]
      rfl
    rw [hrun, publish_eq, latest, List.filterMap_append, List.reverse_append]
    cases haccepted : c.accepted with
    | none =>
      rw [List.filterMap_cons_none haccepted]
      exact ih
    | some b =>
      rw [List.filterMap_cons_some haccepted]
      dsimp only
      rw [Dict.get?_set]
      by_cases hid : b.sleeveId = sleeveId
      · rw [if_pos (by rw [hid])]
        simp [hid]
      · rw [if_neg (by rw [key_inj]; exact Ne.symm hid), ih, latest]
        simp [hid]

/-- **Latest wins.** After any calls of any sleeves, accepted or not, the portfolio reads of a sleeve the
last book that the sleeve has written, and of every book that was written there is one message. -/
theorem read_publishAll (cs : List CreateCall) (h : ∀ c ∈ cs, c.Numbers) :
    (∀ sleeveId, (publishAll .empty cs).read sleeveId =
      .ok ((latest cs sleeveId).map TargetBook.asRead)) ∧
    (publishAll .empty cs).published = (cs.filterMap CreateCall.accepted).map fun b =>
      (channel b.sleeveId, toString b.revision) := by
  refine ⟨fun sleeveId => ?_, ?_⟩
  · rw [read, get?_publishAll]
    cases hlatest : latest cs sleeveId with
    | none => rfl
    | some b =>
      obtain ⟨c, hc, haccepted⟩ := List.mem_filterMap.mp
        (List.mem_reverse.mp (List.mem_of_find?_eq_some hlatest))
      have hnumbers : b.Numbers := by
        rw [(fields_of_accepted haccepted).1]
        exact (h c hc).fields
      show (fromJson _).map some = _
      rw [fromJson_spell b hnumbers]
      rfl
  · clear h
    induction cs using List.reverseRecOn with
    | nil => rfl
    | append_singleton cs c ih =>
      rw [publishAll, List.foldl_append, List.filterMap_append, List.map_append, ← ih]
      show (publish (publishAll .empty cs) c).published = _
      rw [publish_eq]
      cases haccepted : c.accepted with
      | none => rw [List.filterMap_cons_none haccepted]; simp
      | some b => rw [List.filterMap_cons_some haccepted]; rfl

/-- A book, one of another sleeve, a newer one with a weight of zero, and one that is refused. -/
def fourCalls : List CreateCall :=
  [⟨"momentum", "4h", ⟨[("BTC", .fin (1 / 2))], by simp⟩, 1, 0, none, "2024-01-01T00:00:00+00:00", []⟩,
   ⟨"carry", "1d", ⟨[("ETH", .fin (-1 / 4))], by simp⟩, 1, 0, none, "2024-01-01T00:00:00+00:00", []⟩,
   ⟨"momentum", "4h", ⟨[("ETH", .fin (1 / 8)), ("BTC", .fin 0)], by simp⟩, 2, 0, none,
     "2024-01-01T04:00:00+00:00", [("note", .str "é")]⟩,
   ⟨"momentum", "4h", ⟨[("BTC", .nan)], by simp⟩, 3, 0, none, "2024-01-01T08:00:00+00:00", []⟩]

/-- The portfolio reads the second book of the first sleeve. -/
theorem read_publishAll_four : ∃ b, (publishAll .empty fourCalls).read "momentum" = .ok (some b) ∧
    b.revision = 2 := by
  obtain ⟨hread, -⟩ := read_publishAll fourCalls fun c hc => by
    simp only [fourCalls, List.mem_cons, List.not_mem_nil, or_false] at hc
    rcases hc with rfl | rfl | rfl | rfl
    · exact ⟨by decide +kernel, ⟨by simp, trivial⟩⟩
    · exact ⟨by decide +kernel, ⟨by simp, trivial⟩⟩
    · exact ⟨by decide +kernel, ⟨by simp, ⟨trivial, trivial⟩⟩⟩
    · exact ⟨by decide +kernel, ⟨by simp, trivial⟩⟩
  have hrevision : (latest fourCalls "momentum").map (fun b => b.revision) = some 2 := by decide +kernel
  obtain ⟨b, hb, hrevision⟩ := Option.map_eq_some_iff.mp hrevision
  exact ⟨b.asRead, by rw [hread, hb]; rfl, hrevision⟩

end TargetBookStore

end Runs

end PaperTrade.PortfolioManager.BookStore
