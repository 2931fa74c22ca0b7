import PaperTrade.Worker.Tables

/-!
# Signals

`parse_signal`: the typed signals and the reading of a stream message into one of them. A field
that fails to parse fails the message, and the fields are read in the order of the source, so the
first failing one decides the error.
-/

namespace PaperTrade.Worker

open PaperTrade.Runtime

inductive SignalType
  | open
  | modify
  | close
  | registerColumns
deriving DecidableEq, Repr

structure OpenSignal where
  alphaId : String
  signalId : String
  symbol : String
  side : String
  entry : PyFloat
  qty : PyFloat
  timestamp : String
  tp : Option PyFloat
  sl : Option PyFloat
  leverage : ℤ
  metadata : Text
  positionId : String
  exchange : String
  feePct : PyFloat

structure ModifySignal where
  alphaId : String
  signalId : String
  positionId : String
  timestamp : String
  tp : Option PyFloat
  sl : Option PyFloat
  metadata : Text

structure CloseSignal where
  alphaId : String
  signalId : String
  positionId : String
  reason : String
  timestamp : String
  exitPrice : Option PyFloat
  qty : Option PyFloat
  metadata : Text

structure RegisterColumnsSignal where
  alphaId : String
  signalId : String
  columns : Text

/-- What `parse_signal` returns. -/
inductive Signal
  | open (s : OpenSignal)
  | modify (s : ModifySignal)
  | close (s : CloseSignal)
  | registerColumns (s : RegisterColumnsSignal)

/-- `SignalType(value)`. -/
def SignalType.ofString? : String → Option SignalType
  | "OPEN" => some .open
  | "MODIFY" => some .modify
  | "CLOSE" => some .close
  | "REGISTER_COLUMNS" => some .registerColumns
  | _ => none

/-- `data[key]`. -/
def required {α : Type} (key : String) : Option α → Except PyError α
  | some a => .ok a
  | none => .error (.keyError key)

/-- `float(s)`. -/
def toFloat (s : Text) : Except PyError PyFloat :=
  match s.float? with
  | some x => .ok x
  | none => .error (.notAFloat s)

/-- `_to_float`: an absent or empty field is `None`. -/
def optFloat : Option Text → Except PyError (Option PyFloat)
  | none => .ok none
  | some s => if s.isEmpty then .ok none else (toFloat s).map some

/-- `_to_finite_float`. -/
def optFiniteFloat (key signalType ref : String) (raw : Option Text) :
    Except PyError (Option ℚ) :=
  match raw with
  | none => .ok none
  | some s => do
    match ← optFloat raw with
    | none => .ok none
    | some (.fin q) => .ok (some q)
    | some _ => .error (.nonFinite signalType key ref s)

/-- `_to_int`. -/
def intOr (default : ℤ) (raw : Option Text) : Except PyError ℤ := do
  match ← optFloat raw with
  | none => .ok default
  | some (.fin q) => .ok (q.num.tdiv q.den)
  | some .nan => .error (.intOf .valueError)
  | some (.inf _) => .error (.intOf .overflowError)

/-- `float(data.get("fee_pct", 0.0) or 0.0)`. -/
def floatOrZero (raw : Option Text) : Except PyError PyFloat := do
  pure ((← optFloat raw).getD 0)

def parseOpen (data : RawSignal) : Except PyError OpenSignal := do
  let symbol ← required "symbol" data.symbol
  let alphaId ← required "alpha_id" data.alphaId
  let signalId ← required "signal_id" data.signalId
  let side ← required "side" data.side
  let entry ← optFiniteFloat "entry" "OPEN" symbol data.entry
  let qty ← optFiniteFloat "qty" "OPEN" symbol data.qty
  let tp ← optFloat data.tp
  let sl ← optFloat data.sl
  let leverage ← intOr 1 data.leverage
  let feePct ← floatOrZero data.feePct
  pure {
    alphaId, signalId, symbol, side
    entry := .fin (entry.getD 0)
    qty := .fin (qty.getD 0)
    timestamp := data.timestamp.getD ""
    tp, sl, leverage
    metadata := data.metadata.getD (.chars "{}")
    positionId := data.positionId.getD ""
    exchange := data.exchange.getD "binance"
    feePct }

def parseModify (data : RawSignal) : Except PyError ModifySignal := do
  let alphaId ← required "alpha_id" data.alphaId
  let signalId ← required "signal_id" data.signalId
  let tp ← optFloat data.tp
  let sl ← optFloat data.sl
  pure {
    alphaId, signalId
    positionId := data.positionId.getD ""
    timestamp := data.timestamp.getD ""
    tp, sl
    metadata := data.metadata.getD (.chars "{}") }

def parseClose (data : RawSignal) : Except PyError CloseSignal := do
  let alphaId ← required "alpha_id" data.alphaId
  let signalId ← required "signal_id" data.signalId
  let exitPrice ← optFloat data.exitPrice
  let qty ← optFiniteFloat "qty" "CLOSE" (data.positionId.getD "") data.qty
  pure {
    alphaId, signalId
    positionId := data.positionId.getD ""
    reason := data.reason.getD "SIGNAL"
    timestamp := data.timestamp.getD ""
    exitPrice
    qty := qty.map .fin
    metadata := data.metadata.getD (.chars "{}") }

def parseRegisterColumns (data : RawSignal) : Except PyError RegisterColumnsSignal := do
  let alphaId ← required "alpha_id" data.alphaId
  pure {
    alphaId
    signalId := data.signalId.getD ""
    columns := data.columns.getD (.chars "[]") }

/-- `parse_signal`. -/
def parseSignal (data : RawSignal) : Except PyError Signal :=
  match SignalType.ofString? (data.type.getD "") with
  | none => .error (.unknownSignalType (data.type.getD ""))
  | some .open => (parseOpen data).map .open
  | some .modify => (parseModify data).map .modify
  | some .close => (parseClose data).map .close
  | some .registerColumns => (parseRegisterColumns data).map .registerColumns

/-! ## What a parsed signal holds -/

lemma bind_eq_ok {ε α β : Type} {x : Except ε α} {f : α → Except ε β} {b : β}
    (h : x >>= f = .ok b) : ∃ a, x = .ok a ∧ f a = .ok b := by
  cases x with
  | error e => cases h
  | ok a => exact ⟨a, rfl, h⟩

lemma parseOpen_of_parseSignal {data : RawSignal} {signal : OpenSignal}
    (h : parseSignal data = .ok (.open signal)) : parseOpen data = .ok signal := by
  simp only [parseSignal] at h
  split at h
  · cases h
  · cases hp : parseOpen data with
    | error e => simp [hp, Except.map] at h
    | ok s => simpa [hp, Except.map] using h
  · cases hp : parseModify data <;> simp [hp, Except.map] at h
  · cases hp : parseClose data <;> simp [hp, Except.map] at h
  · cases hp : parseRegisterColumns data <;> simp [hp, Except.map] at h

lemma parseClose_of_parseSignal {data : RawSignal} {signal : CloseSignal}
    (h : parseSignal data = .ok (.close signal)) : parseClose data = .ok signal := by
  simp only [parseSignal] at h
  split at h
  · cases h
  · cases hp : parseOpen data <;> simp [hp, Except.map] at h
  · cases hp : parseModify data <;> simp [hp, Except.map] at h
  · cases hp : parseClose data with
    | error e => simp [hp, Except.map] at h
    | ok s => simpa [hp, Except.map] using h
  · cases hp : parseRegisterColumns data <;> simp [hp, Except.map] at h

/-- The entry price and the quantity of a parsed OPEN are finite. -/
lemma OpenSignal.finite {data : RawSignal} {signal : OpenSignal}
    (h : parseSignal data = .ok (.open signal)) :
    (∃ entry : ℚ, signal.entry = .fin entry) ∧ ∃ qty : ℚ, signal.qty = .fin qty := by
  have hp := parseOpen_of_parseSignal h
  simp only [parseOpen] at hp
  obtain ⟨_, -, hp⟩ := bind_eq_ok hp
  obtain ⟨_, -, hp⟩ := bind_eq_ok hp
  obtain ⟨_, -, hp⟩ := bind_eq_ok hp
  obtain ⟨_, -, hp⟩ := bind_eq_ok hp
  obtain ⟨entry, -, hp⟩ := bind_eq_ok hp
  obtain ⟨qty, -, hp⟩ := bind_eq_ok hp
  obtain ⟨_, -, hp⟩ := bind_eq_ok hp
  obtain ⟨_, -, hp⟩ := bind_eq_ok hp
  obtain ⟨_, -, hp⟩ := bind_eq_ok hp
  obtain ⟨_, -, hp⟩ := bind_eq_ok hp
  cases hp
  exact ⟨⟨_, rfl⟩, ⟨_, rfl⟩⟩

/-- The quantity of a parsed CLOSE is absent or finite. -/
lemma CloseSignal.qty_finite {data : RawSignal} {signal : CloseSignal}
    (h : parseSignal data = .ok (.close signal)) :
    signal.qty = none ∨ ∃ qty : ℚ, signal.qty = some (.fin qty) := by
  have hp := parseClose_of_parseSignal h
  simp only [parseClose] at hp
  obtain ⟨_, -, hp⟩ := bind_eq_ok hp
  obtain ⟨_, -, hp⟩ := bind_eq_ok hp
  obtain ⟨_, -, hp⟩ := bind_eq_ok hp
  obtain ⟨qty, -, hp⟩ := bind_eq_ok hp
  cases hp
  cases qty with
  | none => exact .inl rfl
  | some q => exact .inr ⟨q, rfl⟩

/-- The OPEN signal a parse result holds. -/
def openOf : Except PyError Signal → Option OpenSignal
  | .ok (.open signal) => some signal
  | _ => none

lemma openOf_eq_some {r : Except PyError Signal} {signal : OpenSignal} :
    openOf r = some signal ↔ r = .ok (.open signal) := by
  unfold openOf
  split
  · simp [eq_comm]
  · rename_i h
    simp only [reduceCtorEq, false_iff]
    exact h signal

/-- The MODIFY signal a parse result holds. -/
def modifyOf : Except PyError Signal → Option ModifySignal
  | .ok (.modify signal) => some signal
  | _ => none

lemma modifyOf_eq_some {r : Except PyError Signal} {signal : ModifySignal} :
    modifyOf r = some signal ↔ r = .ok (.modify signal) := by
  unfold modifyOf
  split
  · simp [eq_comm]
  · rename_i h
    simp only [reduceCtorEq, false_iff]
    exact h signal

/-- The CLOSE signal a parse result holds. -/
def closeOf : Except PyError Signal → Option CloseSignal
  | .ok (.close signal) => some signal
  | _ => none

lemma closeOf_eq_some {r : Except PyError Signal} {signal : CloseSignal} :
    closeOf r = some signal ↔ r = .ok (.close signal) := by
  unfold closeOf
  split
  · simp [eq_comm]
  · rename_i h
    simp only [reduceCtorEq, false_iff]
    exact h signal

end PaperTrade.Worker
