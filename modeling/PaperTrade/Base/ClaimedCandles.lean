import PaperTrade.Base.InFlight
import PaperTrade.Base.PushSignal

/-!
# The candles that are claimed for a position

An engine claims candles for the positions it manages, pushes signals, and reconciles with the
snapshots that the worker publishes. A reconciliation replaces a position by its row, and with it the
mark of the last claim by the one that an earlier signal has carried.

A claim that no signal has carried is forgotten, and the candle can be claimed again.
As long as a reconciliation finds the last claim in the row (`Saved`), the candles of a position rise,
and none is at its entry candle or before it.
-/

namespace PaperTrade.Base

open PaperTrade.Runtime PaperTrade.Worker

/-- A position as the engine has opened it. -/
structure OpenedPosition where
  id : String
  symbol : String
  position : Entries

/-- The engine, the stream of its signals, and the worker with its snapshots. -/
structure CandleWorld where
  alphaId : String
  config : ReconcileConfig
  json : JsonUtils
  executor : Executor
  engine : BaseEngine := { openPositions := .empty }
  stream : List RawSignal := []
  publish : PublishState :=
    { tables := .empty, version := 0, revision := 0, published := [], calls := [], unpublished := true }
  opened : List OpenedPosition := []
  /-- every claim that has succeeded, by position, the oldest first -/
  claimed : List (String × ℤ) := []

/-- What one party can do next. -/
inductive CandleStep
  /-- the engine stores a position and pushes its OPEN -/
  | opens (id symbol : String) (position : Dict String Json) (signal : RawSignal)
  /-- `_claim_position_candle` for the position of a symbol -/
  | claim (symbol : String) (candleOpenMs : ℤ)
  /-- `push_signal` of anything but an OPEN -/
  | push (signal : RawSignal)
  /-- the engine drops the position of a symbol -/
  | closes (symbol : String)
  /-- the worker processes the first message of the stream -/
  | process (env : Env)
  /-- `publish_alpha` is called -/
  | publish
  /-- a call of it goes on -/
  | turn (i : ℕ) (clock : String)
  | reconcile (now : DateTime)

namespace CandleWorld

/-- The id is not in use, as one from `uuid4` is not. -/
def Fresh (x : CandleWorld) (id : String) : Prop :=
  id ≠ "" ∧ (∀ o ∈ x.opened, o.id ≠ id) ∧ ∀ m ∈ x.stream, m.positionId ≠ some id

instance (x : CandleWorld) (id : String) : Decidable (x.Fresh id) :=
  inferInstanceAs (Decidable (_ ∧ _ ∧ _))

/-- The engine stores a position and pushes its OPEN. -/
def opens (x : CandleWorld) (id symbol : String) (position : Dict String Json)
    (signal : RawSignal) : CandleWorld :=
  let position : Entries := (position.set "position_id" (.str id)).rows
  let signal := { signal with type := some "OPEN", positionId := some id, symbol := some symbol }
  let engine := { x.engine with openPositions := x.engine.openPositions.set symbol position }
  { x with
    engine
    stream := x.stream ++ (engine.pushSignal x.json x.alphaId signal).toList
    opened := x.opened ++ [⟨id, symbol, position⟩] }

/-- The engine claims a candle for the position that it holds under a symbol. -/
def claim (x : CandleWorld) (symbol : String) (position : Entries) (c : ℤ) : CandleWorld :=
  match claimPositionCandle position c with
  | .ok (true, position') =>
    { x with
      engine := { x.engine with openPositions := x.engine.openPositions.set symbol position' }
      claimed := x.claimed ++ (positionId? position).toList.map fun id => (id, c) }
  | _ => x

def step (x : CandleWorld) : CandleStep → CandleWorld
  | .opens id symbol position signal =>
    if x.Fresh id then x.opens id symbol position signal else x
  | .claim symbol c =>
    match x.engine.openPositions.get? symbol with
    | some position => x.claim symbol position c
    | none => x
  | .push signal =>
    if signal.type = some "OPEN" then x
    else { x with stream := x.stream ++ (x.engine.pushSignal x.json x.alphaId signal).toList }
  | .closes symbol =>
    { x with engine := { x.engine with openPositions := x.engine.openPositions.erase symbol } }
  | .process env =>
    match x.stream with
    | [] => x
    | m :: rest =>
      { x with
        stream := rest
        publish := x.publish.step x.alphaId (.commit (deliver x.executor x.publish.tables ⟨m, env⟩)) }
  | .publish => { x with publish := x.publish.step x.alphaId .call }
  | .turn i clock => { x with publish := x.publish.step x.alphaId (.turn i clock) }
  | .reconcile now =>
    { x with engine := (x.engine.reconcilePositions x.config now x.publish.storedText).2 }

/-- The world after a run. -/
def steps (x : CandleWorld) (l : List CandleStep) : CandleWorld := l.foldl step x

/-- The candles that have been claimed for a position, the oldest first. -/
def candles (x : CandleWorld) (id : String) : List ℤ :=
  (x.claimed.filter fun p => p.1 = id).map Prod.snd

/-- A candle is after the entry candle of a position. -/
def AfterEntry (position : Entries) (c : ℤ) : Prop :=
  (∀ entryOpen, candleMs position "entry_candle_open_ms" = .ok entryOpen → 0 < entryOpen →
    entryOpen < c) ∧
  ∀ entryClose, candleMs position "signal_candle_close_ms" = .ok entryClose → 0 < entryClose →
    entryClose ≤ c

/-- The candles that have been claimed for a position rise, and all of them are after its entry
candle. -/
def ClaimedOnce (x : CandleWorld) : Prop :=
  ∀ o ∈ x.opened, (x.candles o.id).Pairwise (· < ·) ∧ ∀ c ∈ x.candles o.id, AfterEntry o.position c

/-- The value of an integer. -/
def int? : Json → Option ℤ
  | .int m => some m
  | _ => none

/-- A mark for this candle or a later one. -/
def IsMark (c : ℤ) (p : String × Json) : Prop :=
  p.1 = "last_strategy_candle_ms" → ∃ m ∈ int? p.2, c ≤ m

/-- The `strategy_runtime` of a published row has a mark for this candle or a later one. -/
def HasMark (row : Entries) (c : ℤ) : Prop :=
  ∃ runtime ∈ runtimeOf (metadataOf row),
    (∃ p ∈ runtime, p.1 = "last_strategy_candle_ms") ∧ ∀ p ∈ runtime, IsMark c p

/-- The stored snapshot has the claims of the positions that it lists. -/
def Saved (x : CandleWorld) : Prop :=
  ∀ s ∈ x.publish.stored, ∀ p ∈ (authoritative s.entries).rows,
    ∀ c ∈ x.candles p.1, HasMark p.2 c

/-- A position is opened without a mark; a signal of a position that is not held brings no
`strategy_runtime` of its own; and a reconciliation finds the claims saved. -/
def Careful (x : CandleWorld) : CandleStep → Prop
  | .opens _ _ position _ => position.get? "last_strategy_candle_ms" = none
  | .push signal => x.engine.held signal.positionId = none → messageRuntime signal = none
  | .reconcile _ => x.Saved
  | _ => True

instance (c : ℤ) (p : String × Json) : Decidable (IsMark c p) :=
  inferInstanceAs (Decidable (p.1 = "last_strategy_candle_ms" → ∃ m ∈ int? p.2, c ≤ m))

instance (row : Entries) (c : ℤ) : Decidable (HasMark row c) :=
  inferInstanceAs (Decidable (∃ runtime ∈ runtimeOf (metadataOf row),
    (∃ p ∈ runtime, p.1 = "last_strategy_candle_ms") ∧ ∀ p ∈ runtime, IsMark c p))

instance (x : CandleWorld) : Decidable x.Saved :=
  inferInstanceAs (Decidable (∀ s ∈ x.publish.stored, ∀ p ∈ (authoritative s.entries).rows,
    ∀ c ∈ x.candles p.1, HasMark p.2 c))

instance (x : CandleWorld) (a : CandleStep) : Decidable (x.Careful a) :=
  match a with
  | .opens _ _ position _ => inferInstanceAs (Decidable (position.get? "last_strategy_candle_ms" = none))
  | .push signal => inferInstanceAs (Decidable
      (x.engine.held signal.positionId = none → messageRuntime signal = none))
  | .reconcile _ => inferInstanceAs (Decidable x.Saved)
  | .claim _ _ | .closes _ | .process _ | .publish | .turn _ _ => inferInstanceAs (Decidable True)

/-- Every step of the run is careful. -/
def AllCareful : CandleWorld → List CandleStep → Prop
  | _, [] => True
  | x, a :: l => x.Careful a ∧ AllCareful (x.step a) l

instance decidableAllCareful : ∀ (x : CandleWorld) (l : List CandleStep), Decidable (x.AllCareful l)
  | _, [] => inferInstanceAs (Decidable True)
  | x, a :: l =>
    have := decidableAllCareful (x.step a) l
    inferInstanceAs (Decidable (x.Careful a ∧ AllCareful (x.step a) l))

end CandleWorld

/-! ## What the entries of a position say -/

/-- The keys of the entry candle. -/
def entryKeys : List String := ["entry_candle_open_ms", "signal_candle_close_ms"]

/-- The keys that `_claim_position_candle` reads. -/
def candleKeys : List String := "last_strategy_candle_ms" :: entryKeys

/-- An entry of a position, or of its `strategy_runtime`: the entry candle is that of the opened
position, and a mark is a candle that has been claimed. -/
structure FieldOk (claimed : List (String × ℤ)) (o : OpenedPosition) (p : String × Json) : Prop where
  entry : p.1 ∈ entryKeys → ∀ t, candleMs o.position p.1 = .ok t → intOrZero p.2 = .ok t
  mark : p.1 = "last_strategy_candle_ms" → ∃ c, p.2 = .int c ∧ (o.id, c) ∈ claimed

/-- All entries are in order, and what is missing of the entry candle counts as it did when the position
was opened. -/
structure FieldsOk (claimed : List (String × ℤ)) (o : OpenedPosition) (d : Entries) : Prop where
  fields : ∀ p ∈ d, FieldOk claimed o p
  absent : ∀ k ∈ entryKeys, d.get? k = none → ∀ t, candleMs o.position k = .ok t → t = 0

/-- A `strategy_runtime` is in order: it names no other position. -/
structure RuntimeOk (claimed : List (String × ℤ)) (o : OpenedPosition) (d : Entries) : Prop
    extends FieldsOk claimed o d where
  clean : ∀ v, ("position_id", v) ∉ d ∧ ("symbol", v) ∉ d

section Fields

variable {claimed claimed' : List (String × ℤ)} {o : OpenedPosition} {d d' : Entries}

lemma FieldOk.of_not_mem {p : String × Json} (h : p.1 ∉ candleKeys) : FieldOk claimed o p := by
  refine ⟨fun hentry => ?_, fun hmark => ?_⟩
  · exact absurd (List.mem_cons_of_mem _ hentry) h
  · exact absurd (hmark ▸ List.mem_cons_self ..) h

lemma FieldOk.mono {p : String × Json} (h : FieldOk claimed o p) (hsub : claimed ⊆ claimed') :
    FieldOk claimed' o p := by
  refine ⟨h.entry, fun hmark => ?_⟩
  obtain ⟨c, hc, hmem⟩ := h.mark hmark
  exact ⟨c, hc, hsub hmem⟩

lemma FieldsOk.mono (h : FieldsOk claimed o d) (hsub : claimed ⊆ claimed') :
    FieldsOk claimed' o d := ⟨fun p hp => (h.fields p hp).mono hsub, h.absent⟩

lemma RuntimeOk.mono (h : RuntimeOk claimed o d) (hsub : claimed ⊆ claimed') :
    RuntimeOk claimed' o d := ⟨h.toFieldsOk.mono hsub, h.clean⟩

/-- The entry candle reads as it did when the position was opened. -/
lemma FieldsOk.candleMs (h : FieldsOk claimed o d) {k : String} (hk : k ∈ entryKeys) {t : ℤ}
    (ht : candleMs o.position k = .ok t) : Base.candleMs d k = .ok t := by
  unfold Base.candleMs
  cases hget : d.get? k with
  | none =>
    rw [h.absent k hk hget t ht]
    rfl
  | some v => exact (h.fields _ (mem_of_get? hget)).entry hk t ht

/-- Entries of which some are set. -/
lemma FieldsOk.set (h : FieldsOk claimed o d) {k : String} {v : Json} (hkv : FieldOk claimed o (k, v)) :
    FieldsOk claimed o (d.set k v) := by
  refine ⟨fun p hp => ?_, fun k' hk' hnone => ?_⟩
  · rcases mem_set hp with rfl | hp
    · exact hkv
    · exact h.fields p hp
  · rw [Entries.get?_set] at hnone
    split at hnone
    · cases hnone
    · exact h.absent k' hk' hnone

lemma FieldsOk.setDefault (h : FieldsOk claimed o d) {k : String} {v : Json}
    (hkv : d.get? k = none → FieldOk claimed o (k, v)) : FieldsOk claimed o (setDefault d k v) := by
  unfold Base.setDefault
  split
  · exact h
  · rename_i hnone
    exact h.set (hkv hnone)

/-- A default of the entry candle is what was missing. -/
lemma FieldsOk.setDefault_entry (h : FieldsOk claimed o d) {k : String} (hk : k ∈ entryKeys) :
    FieldsOk claimed o (Base.setDefault d k (.int 0)) := by
  refine h.setDefault fun hnone => ⟨fun _ t ht => ?_, fun hmark => ?_⟩
  · rw [h.absent k hk hnone t ht]
    rfl
  · have hmark : k = "last_strategy_candle_ms" := hmark
    rw [hmark] at hk
    exact absurd hk (by decide)

lemma FieldsOk.setDefault_other (h : FieldsOk claimed o d) {k : String} {v : Json}
    (hk : k ∉ candleKeys) : FieldsOk claimed o (Base.setDefault d k v) :=
  h.setDefault fun _ => .of_not_mem hk

lemma FieldsOk.update (h : ∀ p ∈ d, p.1 ∉ candleKeys) (h' : FieldsOk claimed o d') :
    FieldsOk claimed o (d.update d') := by
  refine ⟨fun p hp => ?_, fun k hk hnone => ?_⟩
  · rcases mem_update hp with hp | hp
    · exact .of_not_mem (h p hp)
    · exact h'.fields p hp
  · refine h'.absent k hk ?_
    by_contra hsome
    exact get?_update_of_ne_none hsome hnone

lemma RuntimeOk.update (h : RuntimeOk claimed o d) (h' : RuntimeOk claimed o d') :
    RuntimeOk claimed o (d.update d') := by
  refine ⟨⟨fun p hp => ?_, fun k hk hnone => ?_⟩, fun v => ⟨fun hmem => ?_, fun hmem => ?_⟩⟩
  · rcases mem_update hp with hp | hp
    · exact h.fields p hp
    · exact h'.fields p hp
  · refine h'.absent k hk ?_
    by_contra hsome
    exact get?_update_of_ne_none hsome hnone
  · exact (mem_update hmem).elim (h.clean v).1 (h'.clean v).1
  · exact (mem_update hmem).elim (h.clean v).2 (h'.clean v).2

lemma RuntimeOk.finite (h : RuntimeOk claimed o d) : RuntimeOk claimed o (finiteEntries d) := by
  refine ⟨⟨fun p hp => ?_, fun k hk hnone => ?_⟩, fun v => ⟨fun hmem => ?_, fun hmem => ?_⟩⟩
  · obtain ⟨v₀, hmem, hv⟩ := mem_finiteEntries hp
    have hold := h.fields _ hmem
    refine ⟨fun hentry t ht => ?_, fun hmark => ?_⟩
    · rw [hv]
      exact intOrZero_finite (hold.entry hentry t ht)
    · obtain ⟨c, hc, hclaimed⟩ := hold.mark hmark
      have hc : v₀ = .int c := hc
      refine ⟨c, ?_, hclaimed⟩
      rw [hv, hc]
      simp [Base.finite]
  · rw [get?_finiteEntries, Option.map_eq_none_iff] at hnone
    exact h.absent k hk hnone
  · obtain ⟨v₀, hmem, -⟩ := mem_finiteEntries hmem
    exact (h.clean v₀).1 hmem
  · obtain ⟨v₀, hmem, -⟩ := mem_finiteEntries hmem
    exact (h.clean v₀).2 hmem

/-- What is pushed of a position. -/
lemma FieldsOk.serialize (h : FieldsOk claimed o d) :
    RuntimeOk claimed o (serializePositionRuntime d) := by
  refine ⟨⟨fun p hp => h.fields p (List.mem_of_mem_filter hp), fun k hk hnone t ht => ?_⟩,
    fun v => ⟨fun hmem => ?_, fun hmem => ?_⟩⟩
  · cases hget : d.get? k with
    | none => exact h.absent k hk hget t ht
    | some v =>
      -- the value is there but no scalar, so it only counts when it is falsy
      have hmem := mem_of_get? hget
      have hvalue := (h.fields _ hmem).entry hk t ht
      have howned : k ∉ workerOwned := by
        intro howned
        unfold entryKeys at hk
        simp only [List.mem_cons, List.not_mem_nil, or_false] at hk
        rcases hk with rfl | rfl <;> exact absurd howned (by decide)
      have hscalar : isScalar v = false := by
        by_contra hscalar
        have hkept : (k, v) ∈ serializePositionRuntime d :=
          List.mem_filter.mpr ⟨hmem, by simp [howned, hscalar]⟩
        exact get?_eq_none.mp hnone v hkept
      cases v with
      | arr items =>
        cases items with
        | nil => simpa [intOrZero, Json.truthy] using hvalue.symm
        | cons a items => simp [intOrZero, Json.truthy, Json.toInt] at hvalue
      | obj entries =>
        cases entries with
        | nil => simpa [intOrZero, Json.truthy] using hvalue.symm
        | cons a entries => simp [intOrZero, Json.truthy, Json.toInt] at hvalue
      | _ => cases hscalar
  · have hkept := (List.mem_filter.mp hmem).2
    simp [workerOwned] at hkept
  · have hkept := (List.mem_filter.mp hmem).2
    simp [workerOwned] at hkept

end Fields

/-! ## A position that is restored -/

section Restore

variable {claimed : List (String × ℤ)} {o : OpenedPosition} {row restored runtime : Entries}

lemma FieldsOk.withTrail {d d' : Entries} {v : Json} (h : FieldsOk claimed o d)
    (htrail : withTrail d v = .ok d') : FieldsOk claimed o d' := by
  simp only [Base.withTrail] at htrail
  obtain ⟨distance, -, htrail⟩ := bind_eq_ok htrail
  obtain ⟨stop, -, htrail⟩ := bind_eq_ok htrail
  have hset : FieldsOk claimed o (d.set "trail_distance" (.float distance)) :=
    h.set (.of_not_mem (show "trail_distance" ∉ candleKeys by decide))
  split at htrail
  · cases htrail
    exact (hset.setDefault_other (by decide)).setDefault_other (by decide)
  · cases htrail
    exact (hset.setDefault_other (by decide)).setDefault_other (by decide)

lemma FieldsOk.withDefaults {d : Entries} (h : FieldsOk claimed o d) (size : PyFloat)
    (hasRuntime : Bool) : FieldsOk claimed o (withDefaults d size hasRuntime) := by
  unfold Base.withDefaults
  dsimp only
  refine FieldsOk.setDefault_other ?_ (by decide)
  refine FieldsOk.setDefault_other ?_ (by decide)
  refine FieldsOk.setDefault_other ?_ (by decide)
  refine FieldsOk.setDefault_other ?_ (by decide)
  refine FieldsOk.setDefault_other ?_ (by decide)
  refine FieldsOk.setDefault_other ?_ (by decide)
  refine FieldsOk.setDefault_entry ?_ (by decide)
  refine FieldsOk.setDefault_entry ?_ (by decide)
  refine FieldsOk.setDefault_other ?_ (by decide)
  refine FieldsOk.setDefault_other ?_ (by decide)
  refine FieldsOk.setDefault_other ?_ (by decide)
  refine FieldsOk.setDefault_other ?_ (by decide)
  refine FieldsOk.setDefault_other ?_ (by decide)
  exact h.setDefault_other (by decide)

lemma rowFields_keys {metadata fields : Entries} (h : rowFields row metadata = .ok fields) :
    ∀ p ∈ fields, p.1 ∉ candleKeys := by
  simp only [rowFields] at h
  obtain ⟨_, -, h⟩ := bind_eq_ok h
  obtain ⟨_, -, h⟩ := bind_eq_ok h
  obtain ⟨_, -, h⟩ := bind_eq_ok h
  obtain ⟨_, -, h⟩ := bind_eq_ok h
  obtain ⟨_, -, h⟩ := bind_eq_ok h
  obtain ⟨_, -, h⟩ := bind_eq_ok h
  obtain ⟨_, -, h⟩ := bind_eq_ok h
  obtain ⟨_, -, h⟩ := bind_eq_ok h
  cases h
  simp [candleKeys, entryKeys]

/-- A restored position has the entry candle and the mark of its row. -/
lemma fieldsOk_normalizePosition (hruntime : runtimeOf (metadataOf row) = some runtime)
    (h : RuntimeOk claimed o runtime) (hnormalize : normalizePosition row = .ok restored) :
    FieldsOk claimed o restored ∧ (runtime.get? "last_strategy_candle_ms" ≠ none →
      ∃ v, restored.get? "last_strategy_candle_ms" = some v ∧
        ("last_strategy_candle_ms", v) ∈ runtime) := by
  simp only [normalizePosition, hruntime, Option.getD_some, Option.isSome_some] at hnormalize
  obtain ⟨fields, hfields, hnormalize⟩ := bind_eq_ok hnormalize
  have hupdate : FieldsOk claimed o (fields.update runtime) :=
    .update (rowFields_keys hfields) h.toFieldsOk
  have hplain : Plain "last_strategy_candle_ms" := by simp [Plain]
  have htrailed : ∃ d, FieldsOk claimed o d ∧
      d.get? "last_strategy_candle_ms" = (fields.update runtime).get? "last_strategy_candle_ms" ∧
      ∃ size, restored = withDefaults d size true := by
    split at hnormalize
    · obtain ⟨d, hd, hnormalize⟩ := bind_eq_ok hnormalize
      obtain ⟨size, -, hnormalize⟩ := bind_eq_ok hnormalize
      cases hd
      exact ⟨_, hupdate, rfl, size, (Except.ok.inj hnormalize).symm⟩
    · obtain ⟨d, hd, hnormalize⟩ := bind_eq_ok hnormalize
      obtain ⟨size, -, hnormalize⟩ := bind_eq_ok hnormalize
      exact ⟨d, hupdate.withTrail hd, get?_withTrail hd (by decide), size,
        (Except.ok.inj hnormalize).symm⟩
  obtain ⟨d, hd, hmark, size, rfl⟩ := htrailed
  refine ⟨hd.withDefaults size true, fun hne => ?_⟩
  rw [get?_withDefaults hplain, hmark]
  obtain ⟨v, hv⟩ := Option.ne_none_iff_exists'.mp
    (get?_update_of_ne_none (d := fields) (e := runtime) hne)
  exact ⟨v, hv, mem_of_get?_update hv hne⟩

end Restore

end PaperTrade.Base
