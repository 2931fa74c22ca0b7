import PaperTrade.Recovery.Candidate
import PaperTrade.Runtime.JsonSpelling
import PaperTrade.Worker.VirtualLedger

/-!
# The ledger file

`write_ledger` writes an entry a line, as JSON with sorted keys; `read_ledger` reads the lines back. What was
written is what is read (`readLedger_writeLedger`).
-/

namespace PaperTrade.Recovery

open PaperTrade.Runtime PaperTrade.Worker

/-! ## Writing -/

/-- The fields of every row. -/
def commonRow (alphaId signalId positionId symbol : String) (side : Side) (decisionPrice : PyFloat)
    (candleOpenMs : ℤ) (eventAt : EventTime) (feePct : PyFloat) : Entries :=
  [("alpha_id", .str alphaId), ("signal_id", .str signalId), ("position_id", .str positionId),
   ("symbol", .str symbol), ("side", .str side.value), ("decision_price", .float decisionPrice),
   ("candle_open_ms", .int candleOpenMs), ("event_at", .str eventAt.isoformat),
   ("fee_pct", .float feePct)]

/-- `_to_row`. -/
def toRow : LedgerEntry → Entries
  | .close e => commonRow e.alphaId e.signalId e.positionId e.symbol e.side e.decisionPrice
      e.candleOpenMs e.eventAt e.feePct ++ [("kind", .str "CLOSE")]
  | .open e => commonRow e.alphaId e.signalId e.positionId e.symbol e.side e.decisionPrice
      e.candleOpenMs e.eventAt e.feePct ++
      [("kind", .str "OPEN"), ("qty", .float e.qty), ("weight", .float e.weight),
       ("strategy_leverage", .float e.strategyLeverage)]

/-- `json.dumps(_to_row(entry), sort_keys=True, separators=(",", ":"))`. -/
def ledgerLine (entry : LedgerEntry) : List Char :=
  Json.spell Json.compact (Json.sortKeys (.obj (toRow entry)))

/-- `"\n".join(lines)`. -/
def joinLines : List (List Char) → List Char
  | [] => []
  | [line] => line
  | line :: lines => line ++ '\n' :: joinLines lines

/-- `write_ledger`: what the file holds. -/
def writeLedger (entries : List LedgerEntry) : List Char := joinLines (entries.map ledgerLine) ++ ['\n']

/-! ## Reading -/

/-- The characters at which `splitlines` breaks. -/
def isLineBreak (c : Char) : Bool :=
  c ∈ ['\n', '\x0b', '\x0c', '\r', '\x1c', '\x1d', '\x1e', '\u0085', '\u2028', '\u2029']

/-- `splitlines`; `line` holds the characters of the current line, the last one first. -/
def splitLines : List Char → List Char → List (List Char)
  | [], [] => []
  | [], line => [line.reverse]
  | '\r' :: '\n' :: rest, line => line.reverse :: splitLines rest []
  | c :: rest, line =>
    if isLineBreak c then line.reverse :: splitLines rest [] else splitLines rest (c :: line)

/-- `c.isspace()`. -/
def isUnicodeSpace (c : Char) : Bool :=
  (9 ≤ c.toNat ∧ c.toNat ≤ 13) ∨ (0x1c ≤ c.toNat ∧ c.toNat ≤ 0x20) ∨ (0x2000 ≤ c.toNat ∧ c.toNat ≤ 0x200a) ∨
    c.toNat ∈ [0x85, 0xa0, 0x1680, 0x2028, 0x2029, 0x202f, 0x205f, 0x3000]

/-- What a reader raises. -/
inductive LedgerError
  /-- a `JSONDecodeError` -/
  | decode
  /-- the row, or a field of it, has another type -/
  | wrongType
  /-- `LedgerParseError: unsupported ledger kind: …` -/
  | unsupportedKind
  /-- a `ValueError` of `Side` -/
  | side (value : String)
  | raised (e : PyError)

/-- A field that is a string. -/
def strField (row : Entries) (key : String) : Except LedgerError String :=
  match row.get? key with
  | some (.str s) => .ok s
  | some _ => .error .wrongType
  | none => .error (.raised (.keyError key))

/-- `float(row[key])`. -/
def floatField (row : Entries) (key : String) : Except LedgerError PyFloat :=
  (item row key >>= jsonFloat).mapError .raised

/-- `int(row[key])`. -/
def intField (row : Entries) (key : String) : Except LedgerError ℤ := do
  let v ← (item row key).mapError .raised
  v.toInt.mapError fun e => .raised (.intOf e)

/-- `Side(row["side"])`. -/
def sideField (row : Entries) : Except LedgerError Side := do
  match ← strField row "side" with
  | "LONG" => .ok .long
  | "SHORT" => .ok .short
  | s => .error (.side s)

/-- `datetime.fromisoformat(row["event_at"])`; what `isoformat` writes of it is always read back. -/
def timeField (row : Entries) : Except LedgerError EventTime := do
  let s ← strField row "event_at"
  match DateTime.fromisoformat s.toList with
  | none => .error (.raised (.invalidIsoformat s))
  | some d =>
    if h : DateTime.parse d.isoformat = some d then .ok ⟨d, d.isoformat, h⟩
    else .error (.raised (.invalidIsoformat s))

def readClose (row : Entries) : Except LedgerError LedgerEntry := do
  let alphaId ← strField row "alpha_id"
  let signalId ← strField row "signal_id"
  let positionId ← strField row "position_id"
  let symbol ← strField row "symbol"
  let side ← sideField row
  let decisionPrice ← floatField row "decision_price"
  let candleOpenMs ← intField row "candle_open_ms"
  let eventAt ← timeField row
  let feePct ← floatField row "fee_pct"
  pure (.close ⟨alphaId, signalId, positionId, symbol, side, decisionPrice, candleOpenMs, eventAt, feePct⟩)

def readOpen (row : Entries) : Except LedgerError LedgerEntry := do
  let alphaId ← strField row "alpha_id"
  let signalId ← strField row "signal_id"
  let positionId ← strField row "position_id"
  let symbol ← strField row "symbol"
  let side ← sideField row
  let decisionPrice ← floatField row "decision_price"
  let qty ← floatField row "qty"
  let weight ← floatField row "weight"
  let strategyLeverage ← floatField row "strategy_leverage"
  let candleOpenMs ← intField row "candle_open_ms"
  let eventAt ← timeField row
  let feePct ← floatField row "fee_pct"
  pure (.open ⟨alphaId, signalId, positionId, symbol, side, decisionPrice, qty, weight, strategyLeverage,
    candleOpenMs, eventAt, feePct⟩)

/-- A line of `read_ledger`. -/
def readLine (line : List Char) : Except LedgerError LedgerEntry :=
  match Json.parse line with
  | none => .error .decode
  | some (.obj row) =>
    match Entries.get? row "kind" with
    | none => .error (.raised (.keyError "kind"))
    | some kind =>
      if kind = .str "CLOSE" then readClose row
      else if kind = .str "OPEN" then readOpen row
      else .error .unsupportedKind
  | some _ => .error .wrongType

/-- `read_ledger` of the text of a file. -/
def readLedger (text : List Char) : Except LedgerError (List LedgerEntry) :=
  ((splitLines text []).filter fun line => !line.all isUnicodeSpace).mapM readLine

/-! ## Lines -/

section Lines

variable {line rest : List Char}

lemma not_isLineBreak {c : Char} (h : 0x20 ≤ c.toNat ∧ c.toNat ≤ 0x7e) :
    isLineBreak c = false ∧ c ≠ '\r' := by
  have hne : ∀ d : Char, ¬ (0x20 ≤ d.toNat ∧ d.toNat ≤ 0x7e) → c ≠ d := by
    rintro d hd rfl
    exact hd h
  constructor
  · simp only [isLineBreak, List.mem_cons, List.not_mem_nil, or_false, decide_eq_false_iff_not, not_or]
    refine ⟨?_, ?_, ?_, ?_, ?_, ?_, ?_, ?_, ?_, ?_⟩ <;> exact hne _ (by decide)
  · exact hne _ (by decide)

/-- A printable line ends at its newline. -/
lemma splitLines_line (h : Json.Printable line) (acc : List Char) :
    splitLines (line ++ '\n' :: rest) acc = (acc.reverse ++ line) :: splitLines rest [] := by
  induction line generalizing acc with
  | nil =>
    rw [List.nil_append, List.append_nil, splitLines]
    · rfl
    · simp
  | cons c line ih =>
    obtain ⟨hbreak, hreturn⟩ := not_isLineBreak (h c List.mem_cons_self)
    rw [List.cons_append, splitLines, hbreak]
    · show splitLines (line ++ '\n' :: rest) (c :: acc) = _
      rw [ih (fun d hd => h d (List.mem_cons_of_mem _ hd))]
      simp
    · rintro rest' heq -
      exact hreturn heq

/-- The lines of a joined text are the lines that it was joined of. -/
lemma splitLines_joinLines {lines : List (List Char)} (hne : lines ≠ [])
    (h : ∀ line ∈ lines, Json.Printable line) : splitLines (joinLines lines ++ ['\n']) [] = lines := by
  induction lines with
  | nil => exact absurd rfl hne
  | cons line lines ih =>
    obtain ⟨hline, hlines⟩ := List.forall_mem_cons.mp h
    cases lines with
    | nil => exact splitLines_line hline []
    | cons next lines =>
      show splitLines (line ++ '\n' :: joinLines (next :: lines) ++ ['\n']) [] = _
      rw [List.append_assoc, List.cons_append, splitLines_line hline, ih (List.cons_ne_nil _ _) hlines]
      rfl

end Lines

/-! ## Rows -/

/-- A time with the text that Python writes for it. -/
structure EventTime.Written (t : EventTime) : Prop where
  valid : t.time.Valid
  text : t.isoformat = t.time.isoformat

/-- An entry of numbers and times as Python has them. -/
def LedgerEntry.Written : LedgerEntry → Prop
  | close e => e.decisionPrice.Decimal ∧ e.feePct.Decimal ∧ e.eventAt.Written
  | .open e => e.decisionPrice.Decimal ∧ e.feePct.Decimal ∧ e.eventAt.Written ∧ e.qty.Decimal ∧
      e.weight.Decimal ∧ e.strategyLeverage.Decimal

section Rows

variable {row : Entries} {key : String}

lemma strField_of_get? {s : String} (h : row.get? key = some (.str s)) : strField row key = .ok s := by
  rw [strField, h]

lemma floatField_of_get? {x : PyFloat} (h : row.get? key = some (.float x)) :
    floatField row key = .ok x := by
  rw [floatField, item, h]
  rfl

lemma intField_of_get? {i : ℤ} (h : row.get? key = some (.int i)) : intField row key = .ok i := by
  rw [intField, item, h]
  rfl

lemma sideField_of_get? {side : Side} (h : row.get? "side" = some (.str side.value)) :
    sideField row = .ok side := by
  rw [sideField, strField_of_get? h]
  cases side <;> rfl

lemma timeField_of_get? {t : EventTime} (h : row.get? "event_at" = some (.str t.isoformat))
    (ht : t.Written) : timeField row = .ok t := by
  have hread := DateTime.parse_isoformat ht.valid
  have hplain : DateTime.fromisoformat t.isoformat.toList = some t.time := by
    have hflat : (t.time.isoformat.toList.flatMap fun c => if c = 'Z' then "+00:00".toList else [c]) =
        t.time.isoformat.toList := by
      rw [List.flatMap_congr fun c hc => if_neg (DateTime.isoformat_chars ht.valid hc),
        List.flatMap_singleton']
    unfold DateTime.parse at hread
    rwa [hflat, ← ht.text] at hread
  rw [timeField, strField_of_get? h]
  show (match DateTime.fromisoformat t.isoformat.toList with | none => _ | some d => _) = _
  rw [hplain]
  show (if h : DateTime.parse t.time.isoformat = some t.time then Except.ok _ else _) = _
  rw [dif_pos hread]
  obtain ⟨time, text, hreads⟩ := t
  obtain rfl : text = time.isoformat := ht.text
  rfl

end Rows

section RoundTrip

variable {entry : LedgerEntry}

lemma nodup_toRow (entry : LedgerEntry) : ((toRow entry).map Prod.fst).Nodup := by
  cases entry <;> simp [toRow, commonRow]

lemma spellable_toRow (h : entry.Written) : Json.Spellable (.obj (toRow entry)) := by
  refine ⟨nodup_toRow entry, ?_⟩
  cases entry with
  | close e =>
    obtain ⟨hprice, hfee, -⟩ := h
    simp [toRow, commonRow, Json.SpellableEntries, Json.Spellable, hprice, hfee]
  | «open» e =>
    obtain ⟨hprice, hfee, -, hqty, hweight, hleverage⟩ := h
    simp [toRow, commonRow, Json.SpellableEntries, Json.Spellable, hprice, hfee, hqty, hweight, hleverage]

/-- The row as it is read back. -/
def sortedRow (entry : LedgerEntry) : Entries :=
  (Json.sortValues (toRow entry)).insertionSort fun e f => e.1 ≤ f.1

lemma parse_ledgerLine (h : entry.Written) :
    Json.parse (ledgerLine entry) = some (.obj (sortedRow entry)) :=
  Json.parse_spell Json.blank_compact (Json.spellable_sortKeys _ (spellable_toRow h))

/-- An entry is read back from its line. -/
lemma readLine_ledgerLine (h : entry.Written) : readLine (ledgerLine entry) = .ok entry := by
  have hget : ∀ key v, (toRow entry).get? key = some v → (sortedRow entry).get? key = some (Json.sortKeys v) :=
    fun key v hv => Json.get?_sorted (nodup_toRow entry) hv
  unfold readLine
  rw [parse_ledgerLine h]
  cases entry with
  | close e =>
    obtain ⟨-, -, htime⟩ := h
    have hkind : Entries.get? (sortedRow (.close e)) "kind" = some (.str "CLOSE") :=
      hget "kind" (.str "CLOSE") rfl
    dsimp only
    rw [hkind]
    dsimp only
    rw [if_pos rfl]
    unfold readClose
    rw [strField_of_get? (hget "alpha_id" (.str e.alphaId) rfl),
      strField_of_get? (hget "signal_id" (.str e.signalId) rfl),
      strField_of_get? (hget "position_id" (.str e.positionId) rfl),
      strField_of_get? (hget "symbol" (.str e.symbol) rfl),
      sideField_of_get? (hget "side" (.str e.side.value) rfl),
      floatField_of_get? (hget "decision_price" (.float e.decisionPrice) rfl),
      intField_of_get? (hget "candle_open_ms" (.int e.candleOpenMs) rfl),
      timeField_of_get? (hget "event_at" (.str e.eventAt.isoformat) rfl) htime,
      floatField_of_get? (hget "fee_pct" (.float e.feePct) rfl)]
    rfl
  | «open» e =>
    obtain ⟨-, -, htime, -⟩ := h
    have hkind : Entries.get? (sortedRow (.open e)) "kind" = some (.str "OPEN") :=
      hget "kind" (.str "OPEN") rfl
    dsimp only
    rw [hkind]
    dsimp only
    rw [if_neg (by simp), if_pos rfl]
    unfold readOpen
    rw [strField_of_get? (hget "alpha_id" (.str e.alphaId) rfl),
      strField_of_get? (hget "signal_id" (.str e.signalId) rfl),
      strField_of_get? (hget "position_id" (.str e.positionId) rfl),
      strField_of_get? (hget "symbol" (.str e.symbol) rfl),
      sideField_of_get? (hget "side" (.str e.side.value) rfl),
      floatField_of_get? (hget "decision_price" (.float e.decisionPrice) rfl),
      floatField_of_get? (hget "qty" (.float e.qty) rfl),
      floatField_of_get? (hget "weight" (.float e.weight) rfl),
      floatField_of_get? (hget "strategy_leverage" (.float e.strategyLeverage) rfl),
      intField_of_get? (hget "candle_open_ms" (.int e.candleOpenMs) rfl),
      timeField_of_get? (hget "event_at" (.str e.eventAt.isoformat) rfl) htime,
      floatField_of_get? (hget "fee_pct" (.float e.feePct) rfl)]
    rfl

lemma printable_ledgerLine (entry : LedgerEntry) : Json.Printable (ledgerLine entry) :=
  Json.printable_spell Json.printable_compact _

/-- No line is blank. -/
lemma not_blank_ledgerLine (entry : LedgerEntry) : (ledgerLine entry).all isUnicodeSpace = false := by
  obtain ⟨row, hrow⟩ : ∃ row, Json.sortKeys (.obj (toRow entry)) = .obj row := ⟨_, rfl⟩
  have hbrace : ∃ t, ledgerLine entry = '{' :: t := by
    unfold ledgerLine
    rw [hrow]
    cases row with
    | nil => exact ⟨_, rfl⟩
    | cons e row => exact ⟨_, rfl⟩
  obtain ⟨t, ht⟩ := hbrace
  rw [ht, List.all_cons]
  rfl

/-- **The ledger file.** Whatever entries are written, with any text in their fields, any numbers and any
times of any zone, `read_ledger` reads the same entries in the same order. -/
theorem readLedger_writeLedger (entries : List LedgerEntry) (h : ∀ entry ∈ entries, entry.Written) :
    readLedger (writeLedger entries) = .ok entries := by
  have hlines : (splitLines (writeLedger entries) []).filter (fun line => !line.all isUnicodeSpace) =
      entries.map ledgerLine := by
    unfold writeLedger
    rcases eq_or_ne entries [] with rfl | hne
    · rfl
    · have hprintable : ∀ line ∈ entries.map ledgerLine, Json.Printable line := by
        intro line hline
        obtain ⟨entry, -, rfl⟩ := List.mem_map.mp hline
        exact printable_ledgerLine entry
      rw [splitLines_joinLines (by simpa using hne) hprintable, List.filter_eq_self]
      intro line hline
      obtain ⟨entry, -, rfl⟩ := List.mem_map.mp hline
      rw [not_blank_ledgerLine entry]
      rfl
  rw [readLedger, hlines]
  clear hlines
  induction entries with
  | nil => rfl
  | cons entry entries ih =>
    obtain ⟨hentry, hentries⟩ := List.forall_mem_cons.mp h
    rw [List.map_cons, List.mapM_cons, readLine_ledgerLine hentry]
    show (do let bs ← (entries.map ledgerLine).mapM readLine; pure (entry :: bs)) = _
    rw [ih hentries]
    rfl

/-- The first of January 2024 in UTC. -/
lemma valid_newYear : (⟨738885 * DateTime.day, some 0⟩ : DateTime).Valid where
  nonneg := by decide
  lt := by decide
  offset offset h := by
    obtain rfl : 0 = offset := Option.some.inj h
    decide

def newYear : EventTime := ⟨_, _, DateTime.parse_isoformat valid_newYear⟩

/-- A close whose symbol has a quote and a line separator, and an open of a small quantity. -/
theorem readLedger_writeLedger_two :
    readLedger (writeLedger
        [.close ⟨"a", "s", "p", "BTC\"\u2028", .long, .fin (1 / 8), 0, newYear, .fin (7 / 10000)⟩,
         .open ⟨"a", "s'", "p'", "ETH", .short, .fin (10 ^ 20), .fin (3 / 10 ^ 7), .fin (-1 / 4), .fin 1, 0,
          newYear, .nan⟩]) = .ok
        [.close ⟨"a", "s", "p", "BTC\"\u2028", .long, .fin (1 / 8), 0, newYear, .fin (7 / 10000)⟩,
         .open ⟨"a", "s'", "p'", "ETH", .short, .fin (10 ^ 20), .fin (3 / 10 ^ 7), .fin (-1 / 4), .fin 1, 0,
          newYear, .nan⟩] := by
  have htime : newYear.Written := ⟨valid_newYear, rfl⟩
  refine readLedger_writeLedger _ fun entry hentry => ?_
  rcases List.mem_cons.mp hentry with rfl | hentry
  · exact ⟨by decide +kernel, by decide +kernel, htime⟩
  · obtain rfl := List.mem_singleton.mp hentry
    exact ⟨by decide +kernel, trivial, htime, by decide +kernel, by decide +kernel, by decide +kernel⟩

end RoundTrip

end PaperTrade.Recovery
