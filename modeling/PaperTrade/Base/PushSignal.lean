import PaperTrade.Base.RuntimeMetadata

/-!
# Claiming candles and pushing signals

`BaseEngine._claim_position_candle` keeps the last candle that it has claimed for a position in the
position itself, and `BaseEngine.push_signal` sends that along with everything else the engine
remembers of the position.
-/

namespace PaperTrade.Base

open PaperTrade.Runtime PaperTrade.Worker

/-! ## Claiming a candle -/

/-- `int(v or 0)` -/
def intOrZero (v : Json) : Except Json.IntError ℤ := if v.truthy then v.toInt else .ok 0

/-- `int(position.get(key, 0) or 0)` -/
def candleMs (position : Entries) (key : String) : Except Json.IntError ℤ :=
  intOrZero ((position.get? key).getD (.int 0))

/-- The open and the close of the entry candle, and the last candle that is processed. -/
def candleMarks (position : Entries) : Except Json.IntError (ℤ × ℤ × ℤ) := do
  let entryOpenMs ← candleMs position "entry_candle_open_ms"
  let entryCloseMs ← candleMs position "signal_candle_close_ms"
  let lastProcessedMs ← intOrZero ((position.get? "last_strategy_candle_ms").getD
    (.int (if 0 < entryOpenMs then entryOpenMs else entryCloseMs - 1)))
  pure (entryOpenMs, entryCloseMs, lastProcessedMs)

/-- `BaseEngine._claim_position_candle`, with what becomes of the position. An `OverflowError` is not
caught. -/
def claimPositionCandle (position : Entries) (candleOpenMs : ℤ) :
    Except Json.IntError (Bool × Entries) :=
  match candleMarks position with
  | .error .overflowError => .error .overflowError
  | .error _ => .ok (false, position)
  | .ok (entryOpenMs, entryCloseMs, lastProcessedMs) =>
    if candleOpenMs ≤ 0 then .ok (false, position)
    else if 0 < entryCloseMs ∧ candleOpenMs < entryCloseMs then .ok (false, position)
    else if entryCloseMs ≤ 0 ∧ 0 < entryOpenMs ∧ candleOpenMs ≤ entryOpenMs then
      .ok (false, position)
    else if candleOpenMs ≤ lastProcessedMs then .ok (false, position)
    else .ok (true, position.set "last_strategy_candle_ms" (.int candleOpenMs))

lemma claimPositionCandle_true {position position' : Entries} {c : ℤ}
    (h : claimPositionCandle position c = .ok (true, position')) :
    position' = position.set "last_strategy_candle_ms" (.int c) ∧
      ∃ entryOpen entryClose last, candleMarks position = .ok (entryOpen, entryClose, last) ∧
        (0 < entryClose → entryClose ≤ c) ∧ (entryClose ≤ 0 → 0 < entryOpen → entryOpen < c) ∧
        last < c := by
  unfold claimPositionCandle at h
  cases hmarks : candleMarks position with
  | error e => cases e <;> rw [hmarks] at h <;> simp at h
  | ok marks =>
    obtain ⟨entryOpen, entryClose, last⟩ := marks
    rw [hmarks] at h
    dsimp only at h
    split at h
    · simp at h
    · split at h
      · simp at h
      · split at h
        · simp at h
        · split at h
          · simp at h
          · have heq : position' = position.set "last_strategy_candle_ms" (.int c) := by
              simpa using h.symm
            refine ⟨heq, entryOpen, entryClose, last, rfl, ?_, ?_, ?_⟩ <;> omega

/-! ## JSON -/

mutual

/-- What orjson writes of a value: a float that is not finite is `null`. -/
def finite : Json → Json
  | .float (.fin q) => .float (.fin q)
  | .float _ => .null
  | .arr items => .arr (finiteItems items)
  | .obj entries => .obj (finiteEntries entries)
  | v => v

def finiteItems : List Json → List Json
  | [] => []
  | v :: items => finite v :: finiteItems items

def finiteEntries : List (String × Json) → List (String × Json)
  | [] => []
  | (k, v) :: entries => (k, finite v) :: finiteEntries entries

end

/-- `base.json_utils`; `none` is an exception. -/
structure JsonUtils where
  dumps : Entries → Option Text
  loads : Text → Option Json

/-- What `dumps` writes reads back with `json.loads`, but for the floats that orjson writes as
`null`. -/
def JsonUtils.Writes (u : JsonUtils) : Prop :=
  ∀ d text, u.dumps d = some text →
    text.loads = some (.obj d) ∨ text.loads = some (.obj (finiteEntries d))

/-- The standard library, where orjson is not installed. -/
def JsonUtils.standard : JsonUtils := ⟨fun d => some (.json (.obj d)), Text.loads⟩

lemma JsonUtils.writes_standard : JsonUtils.standard.Writes := by
  intro d text h
  cases h
  exact .inl rfl

lemma mem_finiteEntries {d : Entries} {k : String} {v : Json} (h : (k, v) ∈ finiteEntries d) :
    ∃ v₀, (k, v₀) ∈ d ∧ v = finite v₀ := by
  induction d with
  | nil => cases h
  | cons p d ih =>
    obtain ⟨k', v'⟩ := p
    unfold finiteEntries at h
    rcases List.mem_cons.mp h with heq | h
    · cases heq
      exact ⟨v', List.mem_cons_self .., rfl⟩
    · obtain ⟨v₀, hmem, hv⟩ := ih h
      exact ⟨v₀, List.mem_cons_of_mem _ hmem, hv⟩

lemma get?_finiteEntries (d : Entries) (k : String) :
    Entries.get? (finiteEntries d) k = (d.get? k).map finite := by
  induction d with
  | nil => rfl
  | cons p d ih =>
    obtain ⟨k', v'⟩ := p
    unfold finiteEntries Entries.get?
    split
    · rfl
    · exact ih

/-- A number is still the number. -/
lemma intOrZero_finite {v : Json} {t : ℤ} (h : intOrZero v = .ok t) : intOrZero (finite v) = .ok t := by
  unfold finite
  split
  · exact h
  · rename_i x hx
    cases x with
    | fin q => exact absurd rfl (hx q)
    | nan => simp [intOrZero, Json.truthy, PyFloat.truthy, Json.toInt] at h
    | inf b => simp [intOrZero, Json.truthy, PyFloat.truthy, Json.toInt] at h
  · rename_i items
    cases items with
    | nil => exact h
    | cons v items => simp [intOrZero, Json.truthy, Json.toInt] at h
  · rename_i entries
    cases entries with
    | nil => exact h
    | cons p entries => simp [intOrZero, Json.truthy, Json.toInt] at h
  · exact h

/-! ## Pushing a signal -/

/-- The fields that the worker owns. -/
def workerOwned : List String :=
  ["position_id", "alpha_id", "symbol", "side", "entry", "entry_price", "qty", "tp", "sl", "leverage",
    "opened_at", "exchange", "metadata"]

/-- `isinstance(value, (str, int, float, bool, type(None)))` -/
def isScalar : Json → Bool
  | .arr _ | .obj _ => false
  | _ => true

/-- `BaseEngine.serialize_position_runtime`. -/
def serializePositionRuntime (position : Entries) : Entries :=
  position.filter fun p => p.1 ∉ workerOwned && isScalar p.2

/-- The first local position with the id of the signal. -/
def BaseEngine.held (e : BaseEngine) (positionId : Option String) : Option Entries :=
  (e.openPositions.rows.find? fun p =>
    getOrNone p.2 "position_id" = (positionId.map Json.str).getD .null).map Prod.snd

/-- `BaseEngine.push_signal`: the message that is added to the stream; `none` is an exception. -/
def BaseEngine.pushSignal (e : BaseEngine) (json : JsonUtils) (alphaId : String)
    (signal : RawSignal) : Option RawSignal :=
  let signal := { signal with alphaId := some alphaId }
  if signal.type ∈ [some "OPEN", some "MODIFY", some "CLOSE"] then
    match e.held signal.positionId with
    | none => some signal
    | some position =>
      let metadata : Entries := ((json.loads (signal.metadata.getD (.chars "{}"))).bind
        Json.entries?).getD []
      let metadata := metadata.set "strategy_runtime_version" (.int 1)
      let metadata := metadata.set "strategy_runtime" (.obj (serializePositionRuntime position))
      (json.dumps metadata).map fun text => { signal with metadata := some text }
  else some signal

lemma loadDict_of_loads {text : Text} {d : Entries} (h : text.loads = some (.obj d)) :
    loadDict text = d := by
  have hnonempty : text.isEmpty = false := by
    cases text with
    | chars s =>
      have hblank : (Text.chars "").loads = none := by decide +kernel
      have hs : s ≠ "" := fun hs => by rw [hs, hblank] at h; cases h
      simpa [Text.isEmpty] using hs
    | num x => rfl
    | json v => rfl
  rw [loadDict, Text.loadsOrEmpty, hnonempty, if_neg Bool.noConfusion, h]

/-- The `strategy_runtime` of a signal that is pushed for a position that is held. -/
lemma messageRuntime_pushSignal {e : BaseEngine} {json : JsonUtils} {alphaId : String}
    {signal signal' : RawSignal} {position : Entries} (hjson : json.Writes)
    (htype : signal.type ∈ [some "OPEN", some "MODIFY", some "CLOSE"])
    (hheld : e.held signal.positionId = some position)
    (h : e.pushSignal json alphaId signal = some signal') :
    messageRuntime signal' = some (serializePositionRuntime position) ∨
      messageRuntime signal' = some (finiteEntries (serializePositionRuntime position)) := by
  unfold BaseEngine.pushSignal at h
  dsimp only at h
  rw [if_pos htype, hheld] at h
  obtain ⟨text, hdumps, hsignal⟩ := Option.map_eq_some_iff.mp h
  subst hsignal
  rcases hjson _ _ hdumps with hloads | hloads
  · refine .inl ?_
    show runtimeOf (loadDict text) = _
    rw [loadDict_of_loads hloads, runtimeOf, Entries.get?_set, if_pos rfl]
    rfl
  · refine .inr ?_
    show runtimeOf (loadDict text) = _
    rw [loadDict_of_loads hloads, runtimeOf, get?_finiteEntries, Entries.get?_set, if_pos rfl]
    rfl

/-- What a push leaves of the signal. -/
lemma pushSignal_fields {e : BaseEngine} {json : JsonUtils} {alphaId : String}
    {signal signal' : RawSignal} (h : e.pushSignal json alphaId signal = some signal') :
    signal'.type = signal.type ∧ signal'.positionId = signal.positionId ∧
      signal'.symbol = signal.symbol ∧
      (e.held signal.positionId = none → signal'.metadata = signal.metadata) := by
  unfold BaseEngine.pushSignal at h
  dsimp only at h
  split at h
  · split at h
    · cases h
      exact ⟨rfl, rfl, rfl, fun _ => rfl⟩
    · rename_i position hheld
      obtain ⟨text, -, hsignal⟩ := Option.map_eq_some_iff.mp h
      subst hsignal
      refine ⟨rfl, rfl, rfl, fun hnone => ?_⟩
      rw [hnone] at hheld
      cases hheld
  · cases h
    exact ⟨rfl, rfl, rfl, fun _ => rfl⟩

end PaperTrade.Base
