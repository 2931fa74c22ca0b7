import PaperTrade.Base.Reconcile

/-!
# Positions in flight

An engine that opens a position stores it and pushes an OPEN; the worker processes the OPEN later, a
snapshot shows it later still, and the engine reconciles at any time. `Step` is what each of the three
can do. A position is in flight while its OPEN waits in the stream, or was processed after the stored
snapshot had read the positions. Such a position is in no stored snapshot, and a reconciliation drops it
as soon as one is stored (`reconcile_keeps_iff`).
-/

namespace PaperTrade.Base

open PaperTrade.Runtime PaperTrade.Worker

/-! ## The parties -/

/-- An OPEN that the worker has not processed. -/
structure PushedOpen where
  positionId : String
  symbol : String

/-- The engine, the stream, and the worker with its snapshots. -/
structure Parties where
  engine : BaseEngine
  stream : List PushedOpen
  publish : PublishState
  /-- every position that the engine has opened, with its symbol -/
  opened : List (String × String)
  /-- the positions whose OPEN is processed, and the commit that did it -/
  processed : List (String × ℕ)
  /-- every id that the worker has had a row of -/
  seen : List String

/-- A row may be published: its `strategy_runtime` names no other position. -/
def CleanPosition (row : PositionRow) : Prop := CleanRow (publishedPosition row).entries

/-- A row of the same position is there. -/
def Continues (rows : List PositionRow) (row : PositionRow) : Prop :=
  ∃ row' ∈ rows, row'.positionId = row.positionId ∧ row'.symbol = row.symbol

/-- An engine stores a position and pushes its OPEN. -/
def Parties.opens (x : Parties) (symbol id : String) (position : Entries) : Parties :=
  { x with
    engine := { x.engine with openPositions := x.engine.openPositions.set symbol position }
    stream := x.stream ++ [⟨id, symbol⟩]
    opened := x.opened ++ [(id, symbol)] }

/-- The worker commits. -/
def Parties.commits (alphaId : String) (x : Parties) (tables : Tables) : Parties :=
  { x with
    publish := x.publish.step alphaId (.commit tables)
    seen := x.seen ++ tables.positions.rows.map PositionRow.positionId }

/-- The worker commits what the first message of the stream does. -/
def Parties.processes (alphaId : String) (x : Parties) (m : PushedOpen) (rest : List PushedOpen)
    (tables : Tables) : Parties :=
  { x.commits alphaId tables with
    stream := rest
    processed := x.processed ++ [(m.positionId, x.publish.version + 1)] }

/-- The engine reconciles with the stored snapshot. -/
def Parties.reconciles (config : ReconcileConfig) (x : Parties) (now : DateTime) : Parties :=
  { x with engine := (x.engine.reconcilePositions config now x.publish.storedText).2 }

/-- What one party can do next. -/
inductive Step (alphaId : String) (config : ReconcileConfig) (x : Parties) : Parties → Prop
  /-- a new position: its id is nowhere yet -/
  | opens (symbol id : String) (position : Entries) (hid : positionId? position = some id)
      (hopened : ∀ p ∈ x.opened, p.1 ≠ id) (hseen : id ∉ x.seen) (hlocal : ¬ x.engine.Manages id) :
      Step alphaId config x (x.opens symbol id position)
  /-- the engine closes what it holds of a symbol -/
  | closes (symbol : String) : Step alphaId config x
      { x with engine := { x.engine with openPositions := x.engine.openPositions.erase symbol } }
  /-- the first OPEN of the stream adds its position or nothing -/
  | processes (m : PushedOpen) (rest : List PushedOpen) (hstream : x.stream = m :: rest)
      (tables : Tables) (hrows : ∀ row ∈ tables.positions.rows, CleanPosition row ∧
        (Continues x.publish.tables.positions.rows row ∨
          (row.positionId = m.positionId ∧ row.symbol = m.symbol))) :
      Step alphaId config x (x.processes alphaId m rest tables)
  /-- anything else that changes rows: closes, stops, the positions of other alphas -/
  | changes (tables : Tables) (hrows : ∀ row ∈ tables.positions.rows, CleanPosition row ∧
      (Continues x.publish.tables.positions.rows row ∨ ∀ p ∈ x.opened, p.1 ≠ row.positionId)) :
      Step alphaId config x (x.commits alphaId tables)
  /-- a call of `publish_alpha` begins or goes on -/
  | publishes (event : PublishEvent) (hevent : ∀ tables, event ≠ .commit tables) :
      Step alphaId config x { x with publish := x.publish.step alphaId event }
  | reconciles (now : DateTime) : Step alphaId config x (x.reconciles config now)

/-- Nothing has been opened; the rows of the worker and of its snapshots may be published. -/
structure Starts (x : Parties) : Prop where
  stream : x.stream = []
  opened : x.opened = []
  processed : x.processed = []
  calls : x.publish.calls = []
  rows : ∀ row ∈ x.publish.tables.positions.rows, CleanPosition row ∧ row.positionId ∈ x.seen
  published : ∀ w ∈ x.publish.published, ∃ rows : List PositionRow,
    w.snapshot.positions = rows.map publishedPosition ∧
    ∀ row ∈ rows, CleanPosition row ∧ row.positionId ∈ x.seen

/-- The states that the parties can reach. -/
inductive Reachable (alphaId : String) (config : ReconcileConfig) : Parties → Prop
  | starts {x} (h : Starts x) : Reachable alphaId config x
  | step {x x'} (h : Reachable alphaId config x) (hstep : Step alphaId config x x') :
      Reachable alphaId config x'

/-- The engine manages a position that it has opened, and its OPEN waits in the stream or was
processed after the stored snapshot had read the positions. -/
def InFlight (x : Parties) (id : String) : Prop :=
  x.engine.Manages id ∧ (∃ symbol, (id, symbol) ∈ x.opened) ∧
    ((∃ m ∈ x.stream, m.positionId = id) ∨ ∃ v, (id, v) ∈ x.processed ∧
      ∀ w, x.publish.published.getLast? = some w → w.version < v)

/-! ## What holds in every state -/

/-- A row as of some commit: it may be published, and if the engine has opened the position, the row
has its symbol and the OPEN was processed by then. -/
structure RowAt (x : Parties) (version : ℕ) (row : PositionRow) : Prop where
  clean : CleanPosition row
  seen : row.positionId ∈ x.seen
  opened : ∀ symbol, (row.positionId, symbol) ∈ x.opened →
    row.symbol = symbol ∧ ∃ v ≤ version, (row.positionId, v) ∈ x.processed

/-- What holds in every state. -/
structure Tracked (x : Parties) : Prop where
  rows : ∀ row ∈ x.publish.tables.positions.rows, RowAt x x.publish.version row
  reads : ∀ revision version rows, .read revision version rows ∈ x.publish.calls →
    ∀ row ∈ rows, RowAt x version row
  published : ∀ w ∈ x.publish.published, ∃ rows : List PositionRow,
    w.snapshot.positions = rows.map publishedPosition ∧
    ∀ row ∈ rows, RowAt x w.version row
  openedOnce : (x.opened.map Prod.fst).Nodup
  streamed : ∀ m ∈ x.stream, (m.positionId, m.symbol) ∈ x.opened
  waiting : ∀ m ∈ x.stream, ∀ v, (m.positionId, v) ∉ x.processed
  streamOnce : (x.stream.map PushedOpen.positionId).Nodup
  processedOnce : (x.processed.map Prod.fst).Nodup
  processedOpened : ∀ p ∈ x.processed, ∃ symbol, (p.1, symbol) ∈ x.opened
  placed : ∀ p ∈ x.opened, x.engine.PlacedAt p.1 p.2

lemma RowAt.mono {x x' : Parties} {version version' : ℕ} {row : PositionRow}
    (h : RowAt x version row) (hversion : version ≤ version') (hseen : ∀ id ∈ x.seen, id ∈ x'.seen)
    (hopened : ∀ symbol, (row.positionId, symbol) ∈ x'.opened →
      (row.positionId, symbol) ∈ x.opened)
    (hprocessed : ∀ p ∈ x.processed, p ∈ x'.processed) : RowAt x' version' row := by
  refine ⟨h.clean, hseen _ h.seen, fun symbol hs => ?_⟩
  obtain ⟨hsymbol, v, hv, hp⟩ := h.opened symbol (hopened symbol hs)
  exact ⟨hsymbol, v, hv.trans hversion, hprocessed _ hp⟩

/-- Only the engine has changed, and it keeps every position under its symbol. -/
lemma Tracked.of_engine {x : Parties} (h : Tracked x) {engine : BaseEngine}
    (hplaced : ∀ p ∈ x.opened, engine.PlacedAt p.1 p.2) : Tracked { x with engine := engine } where
  rows row hrow := (h.rows row hrow).mono le_rfl (fun _ h => h) (fun _ h => h) fun _ h => h
  reads r v rows hcall row hrow :=
    (h.reads r v rows hcall row hrow).mono le_rfl (fun _ h => h) (fun _ h => h) fun _ h => h
  published w hw := by
    obtain ⟨rows, hrows, hall⟩ := h.published w hw
    exact ⟨rows, hrows, fun row hrow =>
      (hall row hrow).mono le_rfl (fun _ h => h) (fun _ h => h) fun _ h => h⟩
  openedOnce := h.openedOnce
  streamed := h.streamed
  waiting := h.waiting
  streamOnce := h.streamOnce
  processedOnce := h.processedOnce
  processedOpened := h.processedOpened
  placed := hplaced

/-- One symbol for each opened position. -/
lemma Tracked.symbol_unique {x : Parties} (h : Tracked x) {id symbol symbol' : String}
    (hs : (id, symbol) ∈ x.opened) (hs' : (id, symbol') ∈ x.opened) : symbol = symbol' := by
  have heq := List.inj_on_of_nodup_map h.openedOnce hs hs' rfl
  exact (Prod.mk.inj heq).2

/-- One commit for each processed OPEN. -/
lemma Tracked.commit_unique {x : Parties} (h : Tracked x) {id : String} {v v' : ℕ}
    (hv : (id, v) ∈ x.processed) (hv' : (id, v') ∈ x.processed) : v = v' := by
  have heq := List.inj_on_of_nodup_map h.processedOnce hv hv' rfl
  exact (Prod.mk.inj heq).2

/-! ## The stored snapshot -/

lemma positionId?_entries {p : PublishedPosition} {id : String}
    (h : positionId? p.entries = some id) : p.row.positionId = id := by
  have hget : p.entries.get? "position_id" = some (.str p.row.positionId) := rfl
  unfold positionId? at h
  rw [hget] at h
  dsimp only at h
  split at h
  · exact Option.some.inj h
  · cases h

lemma parseSnapshot_entries (s : PositionSnapshot) :
    parseSnapshot (some (.json (.obj s.entries))) = some s.entries := rfl

lemma mem_snapshotPositions {s : PositionSnapshot} {pos : Entries}
    (h : .obj pos ∈ snapshotPositions s.entries) : ∃ p ∈ s.positions, pos = p.entries := by
  have hpositions : snapshotPositions s.entries = s.positions.map fun p => .obj p.entries := rfl
  rw [hpositions] at h
  obtain ⟨p, hp, heq⟩ := List.mem_map.mp h
  cases heq
  exact ⟨p, hp, rfl⟩

/-- The rows of the stored snapshot. -/
lemma Tracked.stored_rows {x : Parties} (h : Tracked x) {s : PositionSnapshot}
    (hs : x.publish.stored = some s) : ∃ w, x.publish.published.getLast? = some w ∧
      w.snapshot = s ∧ ∀ pos, .obj pos ∈ snapshotPositions s.entries →
        ∃ row, pos = (publishedPosition row).entries ∧ RowAt x w.version row := by
  unfold PublishState.stored at hs
  obtain ⟨w, hw, rfl⟩ := Option.map_eq_some_iff.mp hs
  obtain ⟨rows, hrows, hall⟩ := h.published w (List.mem_of_getLast? hw)
  refine ⟨w, hw, rfl, fun pos hpos => ?_⟩
  obtain ⟨p, hp, rfl⟩ := mem_snapshotPositions hpos
  rw [hrows] at hp
  obtain ⟨row, hrow, rfl⟩ := List.mem_map.mp hp
  exact ⟨row, rfl, hall row hrow⟩

lemma Tracked.rowsOk {x : Parties} (h : Tracked x) {s : PositionSnapshot}
    (hs : x.publish.stored = some s) {id symbol : String} (hopened : (id, symbol) ∈ x.opened) :
    BaseEngine.RowsOk s.entries id symbol := by
  obtain ⟨w, -, -, hrows⟩ := h.stored_rows hs
  intro pos hpos
  obtain ⟨row, rfl, hrow⟩ := hrows pos hpos
  refine ⟨hrow.clean, fun hid => ?_⟩
  have hid : row.positionId = id := positionId?_entries hid
  obtain ⟨hsymbol, -⟩ := hrow.opened symbol (by rwa [hid])
  rw [← hsymbol]
  rfl

/-- A position in flight is not listed. -/
lemma Tracked.unlisted {x : Parties} (h : Tracked x) {s : PositionSnapshot}
    (hs : x.publish.stored = some s) {id : String} (hflight : InFlight x id) :
    (authoritative s.entries).contains id = false := by
  obtain ⟨-, ⟨symbol, hopened⟩, hlate⟩ := hflight
  obtain ⟨w, hw, -, hrows⟩ := h.stored_rows hs
  rw [Table.not_contains_iff]
  rintro p hp rfl
  obtain ⟨hmem, hid⟩ := BaseEngine.mem_authoritative hp
  obtain ⟨row, heq, hrow⟩ := hrows _ hmem
  have hrowId : row.positionId = p.1 := by
    rw [heq] at hid
    exact positionId?_entries hid
  -- the OPEN was processed by the time of the read
  obtain ⟨-, v, hv, hprocessed⟩ := hrow.opened symbol (by rwa [hrowId])
  rw [hrowId] at hprocessed
  rcases hlate with ⟨m, hm, hmid⟩ | ⟨v', hv', hlater⟩
  · exact h.waiting m hm v (by rwa [hmid])
  · have hlt := hlater w hw
    rw [h.commit_unique hv' hprocessed] at hlt
    omega

/-! ## The steps -/

section Steps

variable {alphaId : String} {config : ReconcileConfig} {x : Parties}

lemma Tracked.opens (h : Tracked x) {symbol id : String} {position : Entries}
    (hid : positionId? position = some id) (hopened : ∀ p ∈ x.opened, p.1 ≠ id)
    (hseen : id ∉ x.seen) (hlocal : ¬ x.engine.Manages id) :
    Tracked (x.opens symbol id position) := by
  have hold : ∀ {version row}, RowAt x version row → RowAt (x.opens symbol id position) version row := by
    intro version row hrow
    refine hrow.mono le_rfl (fun _ h => h) (fun s hs => ?_) fun _ h => h
    rcases List.mem_append.mp hs with hs | hs
    · exact hs
    · -- the id of a row has been seen, that of the new position has not
      have heq := (Prod.mk.inj (List.mem_singleton.mp hs)).1
      exact absurd (heq ▸ hrow.seen) hseen
  have hwaiting : ∀ v, (id, v) ∉ x.processed := by
    intro v hv
    obtain ⟨s, hs⟩ := h.processedOpened _ hv
    exact hopened _ hs rfl
  refine ⟨fun row hrow => hold (h.rows row hrow), fun r v rows hcall row hrow =>
    hold (h.reads r v rows hcall row hrow), fun w hw => ?_, ?_, fun m hm => ?_, fun m hm => ?_, ?_,
    h.processedOnce, fun p hp => ?_, fun p hp => ?_⟩
  · obtain ⟨rows, hrows, hall⟩ := h.published w hw
    exact ⟨rows, hrows, fun row hrow => hold (hall row hrow)⟩
  · have hnew : id ∉ x.opened.map Prod.fst := by
      intro hmem
      obtain ⟨p, hp, heq⟩ := List.mem_map.mp hmem
      exact hopened p hp heq
    simpa [Parties.opens, List.nodup_append] using ⟨h.openedOnce, fun p s hs heq =>
      hopened _ hs heq⟩
  · rcases List.mem_append.mp hm with hm | hm
    · exact List.mem_append_left _ (h.streamed m hm)
    · rw [List.mem_singleton.mp hm]
      exact List.mem_append_right _ (List.mem_singleton_self _)
  · rcases List.mem_append.mp hm with hm | hm
    · exact h.waiting m hm
    · rw [List.mem_singleton.mp hm]
      exact hwaiting
  · have hnew : ∀ m ∈ x.stream, m.positionId ≠ id := fun m hm => hopened _ (h.streamed m hm)
    simpa [Parties.opens, List.nodup_append] using ⟨h.streamOnce, hnew⟩
  · obtain ⟨s, hs⟩ := h.processedOpened p hp
    exact ⟨s, List.mem_append_left _ hs⟩
  · intro r hr hrid
    rcases (Dict.mem_set _ _ _ _).mp hr with rfl | ⟨hr, -⟩
    · have heq : p.1 = id := by
        rw [hid] at hrid
        exact (Option.some.inj hrid).symm
      rcases List.mem_append.mp hp with hp | hp
      · exact absurd heq (hopened p hp)
      · rw [List.mem_singleton.mp hp]
    · rcases List.mem_append.mp hp with hp | hp
      · exact h.placed p hp r hr hrid
      · rw [List.mem_singleton.mp hp] at hrid
        exact absurd ⟨r, hr, hrid⟩ hlocal

/-- A commit: what was captured before it stays, and its rows are as of the new commit. -/
lemma Tracked.commits (h : Tracked x) {tables : Tables}
    (hrows : ∀ row ∈ tables.positions.rows, CleanPosition row ∧
      (Continues x.publish.tables.positions.rows row ∨ ∀ p ∈ x.opened, p.1 ≠ row.positionId)) :
    Tracked (x.commits alphaId tables) := by
  have hseen : ∀ id ∈ x.seen, id ∈ (x.commits alphaId tables).seen :=
    fun id hid => List.mem_append_left _ hid
  refine ⟨fun row hrow => ?_, fun r v rows hcall row hrow => ?_, fun w hw => ?_, h.openedOnce,
    h.streamed, h.waiting, h.streamOnce, h.processedOnce, h.processedOpened, h.placed⟩
  · obtain ⟨hclean, hfrom⟩ := hrows row hrow
    refine ⟨hclean, List.mem_append_right _ (List.mem_map_of_mem hrow), fun symbol hs => ?_⟩
    rcases hfrom with ⟨row', hrow', hid, hsymbol⟩ | hforeign
    · obtain ⟨hs', v, hv, hp⟩ := (h.rows row' hrow').opened symbol (by rwa [hid])
      exact ⟨hsymbol ▸ hs', v, hv.trans (Nat.le_succ _), hid ▸ hp⟩
    · exact absurd rfl (hforeign _ hs)
  · exact (h.reads r v rows hcall row hrow).mono le_rfl hseen (fun _ h => h) fun _ h => h
  · obtain ⟨rows, hr, hall⟩ := h.published w hw
    exact ⟨rows, hr, fun row hrow =>
      (hall row hrow).mono le_rfl hseen (fun _ h => h) fun _ h => h⟩

lemma Tracked.processes (h : Tracked x) {m : PushedOpen} {rest : List PushedOpen}
    (hstream : x.stream = m :: rest) {tables : Tables}
    (hrows : ∀ row ∈ tables.positions.rows, CleanPosition row ∧
      (Continues x.publish.tables.positions.rows row ∨
        (row.positionId = m.positionId ∧ row.symbol = m.symbol))) :
    Tracked (x.processes alphaId m rest tables) := by
  have hseen : ∀ id ∈ x.seen, id ∈ (x.processes alphaId m rest tables).seen :=
    fun id hid => List.mem_append_left _ hid
  have hprocessed : ∀ p ∈ x.processed, p ∈ (x.processes alphaId m rest tables).processed :=
    fun p hp => List.mem_append_left _ hp
  have hm : m ∈ x.stream := by
    rw [hstream]
    exact List.mem_cons_self
  have hrest : ∀ m' ∈ rest, m' ∈ x.stream := by
    intro m' hm'
    rw [hstream]
    exact List.mem_cons_of_mem _ hm'
  have honce := h.streamOnce
  rw [hstream, List.map_cons, List.nodup_cons] at honce
  refine ⟨fun row hrow => ?_, fun r v rows hcall row hrow => ?_, fun w hw => ?_, h.openedOnce,
    fun m' hm' => h.streamed m' (hrest m' hm'), fun m' hm' v hv => ?_, honce.2, ?_, fun p hp => ?_,
    h.placed⟩
  · obtain ⟨hclean, hfrom⟩ := hrows row hrow
    refine ⟨hclean, List.mem_append_right _ (List.mem_map_of_mem hrow), fun symbol hs => ?_⟩
    rcases hfrom with ⟨row', hrow', hid, hsymbol⟩ | ⟨hid, hsymbol⟩
    · obtain ⟨hs', v, hv, hp⟩ := (h.rows row' hrow').opened symbol (by rwa [hid])
      exact ⟨hsymbol ▸ hs', v, hv.trans (Nat.le_succ _), hprocessed _ (hid ▸ hp)⟩
    · -- the row of the message
      rw [hid] at hs ⊢
      refine ⟨hsymbol.trans (h.symbol_unique (h.streamed m hm) hs), x.publish.version + 1, le_rfl, ?_⟩
      exact List.mem_append_right _ (List.mem_singleton_self _)
  · exact (h.reads r v rows hcall row hrow).mono le_rfl hseen (fun _ h => h) hprocessed
  · obtain ⟨rows, hr, hall⟩ := h.published w hw
    exact ⟨rows, hr, fun row hrow =>
      (hall row hrow).mono le_rfl hseen (fun _ h => h) hprocessed⟩
  · rcases List.mem_append.mp hv with hv | hv
    · exact h.waiting m' (hrest m' hm') v hv
    · have heq := (Prod.mk.inj (List.mem_singleton.mp hv)).1
      exact honce.1 (heq ▸ List.mem_map_of_mem hm')
  · have hnew : ∀ p ∈ x.processed, p.1 ≠ m.positionId := by
      intro p hp heq
      exact h.waiting m hm p.2 (heq ▸ hp)
    have hnodup : ((x.processed ++ [(m.positionId, x.publish.version + 1)]).map Prod.fst).Nodup := by
      rw [List.map_append]
      refine List.nodup_append.mpr ⟨h.processedOnce, List.nodup_singleton _, fun a ha b hb => ?_⟩
      obtain ⟨p, hp, rfl⟩ := List.mem_map.mp ha
      rw [List.mem_singleton.mp hb]
      exact hnew p hp
    exact hnodup
  · rcases List.mem_append.mp hp with hp | hp
    · exact h.processedOpened p hp
    · rw [List.mem_singleton.mp hp]
      exact ⟨_, h.streamed m hm⟩

lemma mem_allOpenPositions {t : Tables} {row : PositionRow}
    (h : row ∈ allOpenPositions t alphaId) : row ∈ t.positions.rows :=
  List.mem_of_mem_filter ((List.mergeSort_perm _ _).mem_iff.mp h)

/-- The calls and the writes after a turn of the publisher are old ones or the next of a call. -/
lemma publish_step (alphaId : String) {z : PublishState} {event : PublishEvent}
    (hevent : ∀ tables, event ≠ .commit tables) :
    (z.step alphaId event).tables = z.tables ∧
      (z.step alphaId event).version = z.version ∧
      (∀ r v rows, .read r v rows ∈ (z.step alphaId event).calls →
        .read r v rows ∈ z.calls ∨
          (v = z.version ∧ rows = allOpenPositions z.tables alphaId)) ∧
      ∀ w ∈ (z.step alphaId event).published, w ∈ z.published ∨
        ∃ r rows, .read r w.version rows ∈ z.calls ∧
          w.snapshot.positions = rows.map publishedPosition := by
  cases event with
  | commit tables => exact absurd rfl (hevent tables)
  | call =>
    refine ⟨rfl, rfl, fun r v rows hc => ?_, fun w hw => .inl hw⟩
    rcases List.mem_append.mp hc with hc | hc
    · exact .inl hc
    · cases List.mem_singleton.mp hc
  | turn i clock =>
    cases hget : z.calls[i]? with
    | none =>
      rw [PublishState.step_turn_none hget]
      exact ⟨rfl, rfl, fun _ _ _ hc => .inl hc, fun w hw => .inl hw⟩
    | some c =>
      rw [PublishState.step_turn_some hget]
      cases c with
      | begun =>
        refine ⟨rfl, rfl, fun r v rows hc => ?_, fun w hw => .inl hw⟩
        rcases List.mem_or_eq_of_mem_set hc with hc | hc
        · exact .inl hc
        · cases hc
      | incremented revision =>
        refine ⟨rfl, rfl, fun r v rows hc => ?_, fun w hw => .inl hw⟩
        rcases List.mem_or_eq_of_mem_set hc with hc | hc
        · exact .inl hc
        · cases hc
          exact .inr ⟨rfl, rfl⟩
      | read revision version positions =>
        refine ⟨rfl, rfl, fun r v rows hc => .inl (List.mem_of_mem_eraseIdx hc), fun w hw => ?_⟩
        rcases List.mem_append.mp hw with hw | hw
        · exact .inl hw
        · rw [List.mem_singleton.mp hw]
          exact .inr ⟨revision, positions, List.mem_of_getElem? hget, rfl⟩

lemma Tracked.publishes (h : Tracked x) {event : PublishEvent}
    (hevent : ∀ tables, event ≠ .commit tables) :
    Tracked { x with publish := x.publish.step alphaId event } := by
  have hsame : ∀ {version row}, RowAt x version row →
      RowAt { x with publish := x.publish.step alphaId event } version row := fun hrow =>
    hrow.mono le_rfl (fun _ h => h) (fun _ h => h) fun _ h => h
  obtain ⟨htables, hversion, hcalls, hwritten⟩ := publish_step alphaId hevent
  refine ⟨fun row hrow => ?_, fun r v rows hc row hrow => ?_, fun w hw => ?_, h.openedOnce, h.streamed,
    h.waiting, h.streamOnce, h.processedOnce, h.processedOpened, h.placed⟩
  · rw [htables] at hrow
    rw [hversion]
    exact hsame (h.rows row hrow)
  · rcases hcalls r v rows hc with hc | ⟨rfl, rfl⟩
    · exact hsame (h.reads r v rows hc row hrow)
    · exact hsame (h.rows row (mem_allOpenPositions hrow))
  · rcases hwritten w hw with hw | ⟨r, rows, hc, hpositions⟩
    · obtain ⟨rows, hrows, hall⟩ := h.published w hw
      exact ⟨rows, hrows, fun row hrow => hsame (hall row hrow)⟩
    · exact ⟨rows, hpositions, fun row hrow => hsame (h.reads r _ rows hc row hrow)⟩

lemma Tracked.reconciles (h : Tracked x) (now : DateTime) : Tracked (x.reconciles config now) := by
  refine h.of_engine fun p hp => (h.placed p hp).reconcile fun snapshot hparse => ?_
  cases hstored : x.publish.stored with
  | none =>
    rw [PublishState.storedText, hstored] at hparse
    cases hparse
  | some s =>
    rw [PublishState.storedText, hstored, Option.map_some, parseSnapshot_entries] at hparse
    cases hparse
    exact h.rowsOk hstored hp

lemma Tracked.step (h : Tracked x) {x' : Parties} (hstep : Step alphaId config x x') : Tracked x' := by
  cases hstep with
  | opens symbol id position hid hopened hseen hlocal => exact h.opens hid hopened hseen hlocal
  | closes symbol =>
    refine h.of_engine fun p hp r hr => ?_
    exact h.placed p hp r ((Table.mem_erase _ _ _).mp hr).1
  | processes m rest hstream tables hrows => exact h.processes hstream hrows
  | changes tables hrows => exact h.commits hrows
  | publishes event hevent => exact h.publishes hevent
  | reconciles now => exact h.reconciles now

lemma Starts.tracked (h : Starts x) : Tracked x where
  rows row hrow := ⟨(h.rows row hrow).1, (h.rows row hrow).2, fun s hs => by
    rw [h.opened] at hs
    cases hs⟩
  reads r v rows hc := by
    rw [h.calls] at hc
    cases hc
  published w hw := by
    obtain ⟨rows, hrows, hall⟩ := h.published w hw
    refine ⟨rows, hrows, fun row hrow => ⟨(hall row hrow).1, (hall row hrow).2, fun s hs => ?_⟩⟩
    rw [h.opened] at hs
    cases hs
  openedOnce := by
    rw [h.opened]
    exact List.nodup_nil
  streamed m hm := by
    rw [h.stream] at hm
    cases hm
  waiting m hm := by
    rw [h.stream] at hm
    cases hm
  streamOnce := by
    rw [h.stream]
    exact List.nodup_nil
  processedOnce := by
    rw [h.processed]
    exact List.nodup_nil
  processedOpened p hp := by
    rw [h.processed] at hp
    cases hp
  placed p hp := by
    rw [h.opened] at hp
    cases hp

theorem Reachable.tracked (h : Reachable alphaId config x) : Tracked x := by
  induction h with
  | starts h => exact h.tracked
  | step _ hstep ih => exact ih.step hstep

/-- A reconciliation keeps a position in flight exactly when no snapshot is stored. -/
theorem reconcile_keeps_iff (h : Reachable alphaId config x) {id : String} (hflight : InFlight x id)
    (now : DateTime) :
    (x.reconciles config now).engine.Manages id ↔ x.publish.stored = none := by
  have htracked := h.tracked
  cases hstored : x.publish.stored with
  | none =>
    refine ⟨fun _ => rfl, fun _ => ?_⟩
    unfold Parties.reconciles BaseEngine.Manages
    rw [PublishState.storedText, hstored]
    dsimp only
    rw [BaseEngine.reconcile_unread _ rfl]
    exact hflight.1
  | some s =>
    refine ⟨fun hmanages => absurd hmanages ?_, fun hnone => by cases hnone⟩
    obtain ⟨symbol, hopened⟩ := hflight.2.1
    have hparse : parseSnapshot x.publish.storedText = some s.entries := by
      rw [PublishState.storedText, hstored, Option.map_some, parseSnapshot_entries]
    exact BaseEngine.reconcile_drops hparse rfl (htracked.rowsOk hstored hopened)
      (htracked.placed _ hopened) (htracked.unlisted hstored hflight)

end Steps

/-! ## A position in flight that is dropped -/

/-- Nothing is open and nothing is published. -/
def noParties : Parties where
  engine := { openPositions := .empty }
  stream := []
  publish := PublishState.unpublishedState
  opened := []
  processed := []
  seen := []

/-- A snapshot with no position is stored. -/
def emptySnapshot : Parties :=
  { noParties with
    publish := noParties.publish.run "a" [.call, .turn 0 "t1", .turn 0 "t2", .turn 0 "t3"] }

/-- What an engine stores of a position. -/
def localPosition : Entries := [("position_id", .str "p1"), ("symbol", .str "BTCUSDT")]

lemma starts_noParties : Starts noParties where
  stream := rfl
  opened := rfl
  processed := rfl
  calls := rfl
  rows row hrow := by cases hrow
  published w hw := by cases hw

lemma reachable_emptySnapshot : Reachable "a" {} emptySnapshot := by
  have hturn : ∀ (i : ℕ) (clock : String) (tables : Tables),
      PublishEvent.turn i clock ≠ .commit tables := fun _ _ _ h => by cases h
  have hstart : Reachable "a" {} noParties := .starts starts_noParties
  have hcall := hstart.step (.publishes .call fun _ h => by cases h)
  have hincrement := hcall.step (.publishes (.turn 0 "t1") (hturn _ _))
  have hread := hincrement.step (.publishes (.turn 0 "t2") (hturn _ _))
  exact hread.step (.publishes (.turn 0 "t3") (hturn _ _))

lemma inFlight_opens {x : Parties} : InFlight (x.opens "BTCUSDT" "p1" localPosition) "p1" := by
  refine ⟨⟨_, (Dict.mem_set _ _ _ _).mpr (.inl rfl), rfl⟩, ⟨"BTCUSDT", ?_⟩, .inl ⟨⟨"p1", "BTCUSDT"⟩, ?_, rfl⟩⟩
  · exact List.mem_append_right _ (List.mem_singleton_self _)
  · exact List.mem_append_right _ (List.mem_singleton_self _)

lemma reachable_opens {x : Parties} (h : Reachable "a" {} x) (hopened : x.opened = [])
    (hseen : x.seen = []) (hengine : x.engine.openPositions.rows = []) :
    Reachable "a" {} (x.opens "BTCUSDT" "p1" localPosition) := by
  refine h.step (.opens _ _ _ rfl (fun p hp => ?_) ?_ ?_)
  · rw [hopened] at hp
    cases hp
  · rw [hseen]
    exact List.not_mem_nil
  · rintro ⟨r, hr, -⟩
    rw [hengine] at hr
    cases hr

/-- The worker has published that there is no position, the engine opens one, and its next
reconciliation drops it before the worker has read the OPEN. -/
theorem reconcile_drops_inFlight :
    Reachable "a" {} (emptySnapshot.opens "BTCUSDT" "p1" localPosition) ∧
    InFlight (emptySnapshot.opens "BTCUSDT" "p1" localPosition) "p1" ∧
    ∀ now, ¬ ((emptySnapshot.opens "BTCUSDT" "p1" localPosition).reconciles {} now).engine.Manages
      "p1" := by
  have hreach := reachable_opens reachable_emptySnapshot rfl rfl rfl
  refine ⟨hreach, inFlight_opens, fun now => ?_⟩
  have htracked := hreach.tracked
  have hopened : ("p1", "BTCUSDT") ∈ (emptySnapshot.opens "BTCUSDT" "p1" localPosition).opened :=
    List.mem_append_right _ (List.mem_singleton_self _)
  exact BaseEngine.reconcile_drops (parseSnapshot_entries _) rfl (htracked.rowsOk rfl hopened)
    (htracked.placed _ hopened) (htracked.unlisted rfl inFlight_opens)

/-- Before the first snapshot the position stays. -/
theorem reconcile_keeps_iff_unpublished : ((noParties.opens "BTCUSDT" "p1" localPosition).reconciles {}
    ⟨0, some 0⟩).engine.Manages "p1" :=
  (reconcile_keeps_iff (reachable_opens (.starts starts_noParties) rfl rfl rfl) inFlight_opens
    ⟨0, some 0⟩).mpr rfl

end PaperTrade.Base
