import PaperTrade.Worker.Database
import PaperTrade.Runtime.Spelling

/-!
# Position snapshots

`PositionSnapshotPublisher.publish_alpha` increments the revision of the alpha, reads its positions and
writes the snapshot, with an await at each: calls of the repair loop and of the consumer interleave with
each other and with commits. Each write is kept in `published`, with the number of commits that the
read had seen, and the stored snapshot is the last one.

Calls that overlap can write in another order than that of their revisions (`overlap_goes_back`) or
read in another order (`overlap_shows_older`). Calls that do not overlap publish in order
(`publish_serial`).
-/

namespace PaperTrade.Worker

open PaperTrade.Runtime

/-! ## A snapshot -/

/-- A position as `_position` publishes it. -/
structure PublishedPosition where
  row : PositionRow
  metadata : Json

/-- The metadata of a published position. -/
def publishedMetadata (raw : Text) : Json :=
  (raw.loadsOrEmpty).getD (.obj [("legacy_raw", .str raw.spell)])

/-- `PositionSnapshotPublisher._position`. -/
def publishedPosition (row : PositionRow) : PublishedPosition :=
  ⟨row, publishedMetadata row.metadata⟩

/-- `Database.get_all_open_positions`; an empty id selects every alpha. -/
def allOpenPositions (t : Tables) (alphaId : String) : List PositionRow :=
  (t.positions.rows.filter fun p => alphaId = "" || p.alphaId = alphaId).mergeSort
    fun p p' => p'.openedAt ≤ p.openedAt

/-- The payload of `publish_alpha`. -/
structure PositionSnapshot where
  alphaId : String
  revision : ℕ
  generatedAt : String
  positions : List PublishedPosition

/-- A `REAL` column in a payload. -/
def columnJson : Option PyFloat → Json
  | none => .null
  | some x => .float x

/-- A published position as an object, its keys sorted. -/
def PublishedPosition.entries (p : PublishedPosition) : Entries :=
  [("alpha_id", .str p.row.alphaId), ("entry_price", columnJson p.row.entryPrice),
   ("exchange", .str p.row.exchange), ("fee_pct", columnJson p.row.feePct),
   ("leverage", .int p.row.leverage), ("metadata", p.metadata), ("opened_at", .str p.row.openedAt),
   ("position_id", .str p.row.positionId), ("qty", columnJson p.row.qty), ("side", .str p.row.side),
   ("signal_id", .str p.row.signalId), ("sl", columnJson p.row.sl), ("symbol", .str p.row.symbol),
   ("tp", columnJson p.row.tp)]

/-- The payload as an object, its keys sorted. -/
def PositionSnapshot.entries (s : PositionSnapshot) : Entries :=
  [("alpha_id", .str s.alphaId), ("generated_at", .str s.generatedAt),
   ("positions", .arr (s.positions.map fun p => .obj p.entries)), ("revision", .int s.revision)]

/-! ## Calls and commits -/

/-- A call of `publish_alpha`, by what it has done. -/
inductive PublishCall
  | begun
  | incremented (revision : ℕ)
  /-- the positions are read, after this many commits -/
  | read (revision version : ℕ) (positions : List PositionRow)

/-- A written snapshot and the number of commits that it has seen. -/
structure Written where
  snapshot : PositionSnapshot
  version : ℕ

/-- The database, the keys of an alpha and the calls under way. -/
structure PublishState where
  tables : Tables
  /-- the number of commits -/
  version : ℕ
  /-- `paper:positions:revision:…` -/
  revision : ℕ
  published : List Written
  calls : List PublishCall
  /-- no call has begun since the last commit -/
  unpublished : Bool

inductive PublishEvent
  /-- the contents of the database change -/
  | commit (tables : Tables)
  /-- `publish_alpha` is called -/
  | call
  /-- the `i`-th call goes on to its next await, at this time -/
  | turn (i : ℕ) (clock : String)

namespace PublishState

variable (alphaId : String)

/-- A call goes on to its next await. -/
def turn (w : PublishState) (i : ℕ) (clock : String) : PublishCall → PublishState
  | .begun =>
    { w with
      revision := w.revision + 1
      calls := w.calls.set i (.incremented (w.revision + 1)) }
  | .incremented revision =>
    { w with
      calls := w.calls.set i (.read revision w.version (allOpenPositions w.tables alphaId)) }
  | .read revision version positions =>
    { w with
      published := w.published ++
        [⟨⟨alphaId, revision, clock, positions.map publishedPosition⟩, version⟩]
      calls := w.calls.eraseIdx i }

def step (w : PublishState) : PublishEvent → PublishState
  | .commit tables => { w with tables, version := w.version + 1, unpublished := true }
  | .call => { w with calls := w.calls ++ [.begun], unpublished := false }
  | .turn i clock =>
    match w.calls[i]? with
    | none => w
    | some c => w.turn alphaId i clock c

def run (w : PublishState) (events : List PublishEvent) : PublishState :=
  events.foldl (step alphaId) w

/-- `paper:positions:snapshot:…` -/
def stored (w : PublishState) : Option PositionSnapshot :=
  w.published.getLast?.map Written.snapshot

/-- The value of that key. -/
def storedText (w : PublishState) : Option Text := w.stored.map fun s => .json (.obj s.entries)

/-- The revision of the stored snapshot. -/
def storedRevision (w : PublishState) : ℕ := (w.stored.map PositionSnapshot.revision).getD 0

/-- No call begins while another one is under way. -/
def Serial : PublishState → List PublishEvent → Prop
  | _, [] => True
  | w, e :: events => (e = .call → w.calls = []) ∧ Serial (w.step alphaId e) events

/-! ## Calls that do not overlap -/

/-- The earlier of two writes has the smaller revision and has not seen more. -/
def Ordered (published : List Written) : Prop :=
  published.Pairwise fun a b =>
    a.snapshot.revision < b.snapshot.revision ∧ a.version ≤ b.version

/-- Where the one call under way is. -/
def CallOk (w : PublishState) : PublishCall → Prop
  | .begun => ∀ p ∈ w.published, p.snapshot.revision ≤ w.revision
  | .incremented revision =>
    revision = w.revision ∧ ∀ p ∈ w.published, p.snapshot.revision < w.revision
  | .read revision version positions =>
    (revision = w.revision ∧ ∀ p ∈ w.published, p.snapshot.revision < w.revision) ∧
    (version ≤ w.version ∧ ∀ p ∈ w.published, p.version ≤ version) ∧
    (w.unpublished = false → version = w.version ∧ positions = allOpenPositions w.tables alphaId)

/-- The stored snapshot shows the database. -/
def UpToDate (w : PublishState) : Prop :=
  ∃ snapshot, w.stored = some snapshot ∧
    snapshot.positions = (allOpenPositions w.tables alphaId).map publishedPosition

/-- What holds as long as calls do not overlap. -/
structure InOrder (w : PublishState) : Prop where
  ordered : Ordered w.published
  revisions : ∀ p ∈ w.published, p.snapshot.revision ≤ w.revision
  versions : ∀ p ∈ w.published, p.version ≤ w.version
  calls : w.calls = [] ∨ ∃ c, w.calls = [c] ∧ CallOk alphaId w c
  upToDate : w.calls = [] → w.unpublished = false → w.UpToDate alphaId

variable {alphaId}

lemma step_turn_none {w : PublishState} {i : ℕ} {clock : String} (h : w.calls[i]? = none) :
    w.step alphaId (.turn i clock) = w := by
  simp only [step, h]

lemma step_turn_some {w : PublishState} {i : ℕ} {clock : String} {c : PublishCall}
    (h : w.calls[i]? = some c) : w.step alphaId (.turn i clock) = w.turn alphaId i clock c := by
  simp only [step, h]

lemma InOrder.commit {w : PublishState} (h : w.InOrder alphaId) (tables : Tables) :
    (w.step alphaId (.commit tables)).InOrder alphaId := by
  have hversions : ∀ p ∈ w.published, p.version ≤ w.version + 1 :=
    fun p hp => (h.versions p hp).trans (Nat.le_succ _)
  refine ⟨h.ordered, h.revisions, hversions, ?_, fun _ hpublished => by cases hpublished⟩
  rcases h.calls with hnone | ⟨c, hc, hok⟩
  · exact .inl hnone
  · refine .inr ⟨c, hc, ?_⟩
    cases c with
    | begun => exact hok
    | incremented revision => exact hok
    | read revision version positions =>
      obtain ⟨hrevision, ⟨hle, hseen⟩, -⟩ := hok
      exact ⟨hrevision, ⟨hle.trans (Nat.le_succ _), hseen⟩, fun hpublished => by cases hpublished⟩

lemma InOrder.call {w : PublishState} (h : w.InOrder alphaId) (hnone : w.calls = []) :
    (w.step alphaId .call).InOrder alphaId := by
  have hcalls : (w.step alphaId .call).calls = [.begun] := by
    change w.calls ++ [PublishCall.begun] = _
    rw [hnone]
    rfl
  refine ⟨h.ordered, h.revisions, h.versions, .inr ⟨_, hcalls, h.revisions⟩, fun hempty => ?_⟩
  rw [hcalls] at hempty
  cases hempty

lemma InOrder.turn {w : PublishState} (h : w.InOrder alphaId) (i : ℕ) (clock : String) :
    (w.step alphaId (.turn i clock)).InOrder alphaId := by
  cases hget : w.calls[i]? with
  | none =>
    rwa [step_turn_none hget]
  | some c =>
    rw [step_turn_some hget]
    -- the call is the only one
    obtain ⟨hcalls, hi, hok⟩ : w.calls = [c] ∧ i = 0 ∧ CallOk alphaId w c := by
      rcases h.calls with hnone | ⟨c', hc', hok⟩
      · rw [hnone] at hget
        cases hget
      · rw [hc'] at hget
        cases i with
        | zero =>
          cases hget
          exact ⟨hc', rfl, hok⟩
        | succ i => cases hget
    subst hi
    cases c with
    | begun =>
      have hnext : (w.turn alphaId 0 clock .begun).calls = [.incremented (w.revision + 1)] := by
        change w.calls.set 0 _ = _
        rw [hcalls]
        rfl
      have hrevisions : ∀ p ∈ w.published, p.snapshot.revision ≤ w.revision + 1 :=
        fun p hp => (h.revisions p hp).trans (Nat.le_succ _)
      refine ⟨h.ordered, hrevisions, h.versions, .inr ⟨_, hnext, rfl, fun p hp => ?_⟩,
        fun hempty => ?_⟩
      · exact Nat.lt_succ_of_le (h.revisions p hp)
      · rw [hnext] at hempty
        cases hempty
    | incremented revision =>
      have hnext : (w.turn alphaId 0 clock (.incremented revision)).calls =
          [.read revision w.version (allOpenPositions w.tables alphaId)] := by
        change w.calls.set 0 _ = _
        rw [hcalls]
        rfl
      refine ⟨h.ordered, h.revisions, h.versions,
        .inr ⟨_, hnext, hok, ⟨le_rfl, h.versions⟩, fun _ => ⟨rfl, rfl⟩⟩, fun hempty => ?_⟩
      rw [hnext] at hempty
      cases hempty
    | read revision version positions =>
      obtain ⟨⟨hrevision, hbelow⟩, ⟨hle, hseen⟩, hfresh⟩ := hok
      have hnext : (w.turn alphaId 0 clock (.read revision version positions)).calls = [] := by
        change w.calls.eraseIdx 0 = _
        rw [hcalls]
        rfl
      have hmem : ∀ p ∈ (w.turn alphaId 0 clock (.read revision version positions)).published,
          p ∈ w.published ∨ (p.snapshot.revision = revision ∧ p.version = version) := by
        intro p hp
        rcases List.mem_append.mp hp with hp | hp
        · exact .inl hp
        · rw [List.mem_singleton.mp hp]
          exact .inr ⟨rfl, rfl⟩
      refine ⟨?_, fun p hp => ?_, fun p hp => ?_, .inl hnext, fun _ hpublished => ?_⟩
      · refine List.pairwise_append.mpr ⟨h.ordered, List.pairwise_singleton _ _, fun p hp q hq => ?_⟩
        rw [List.mem_singleton.mp hq, hrevision]
        exact ⟨hbelow p hp, hseen p hp⟩
      · rcases hmem p hp with hp | ⟨hp, -⟩
        · exact h.revisions p hp
        · exact (hp.trans hrevision).le
      · rcases hmem p hp with hp | ⟨-, hp⟩
        · exact h.versions p hp
        · rw [hp]
          exact hle
      · obtain ⟨-, hpositions⟩ := hfresh hpublished
        refine ⟨⟨alphaId, revision, clock, positions.map publishedPosition⟩, ?_, ?_⟩
        · change (w.published ++ [_]).getLast?.map Written.snapshot = _
          rw [List.getLast?_append]
          rfl
        · change positions.map publishedPosition = _
          rw [hpositions]
          rfl

lemma InOrder.run {w : PublishState} (h : w.InOrder alphaId) {events : List PublishEvent}
    (hserial : w.Serial alphaId events) : (w.run alphaId events).InOrder alphaId := by
  induction events generalizing w with
  | nil => exact h
  | cons e events ih =>
    obtain ⟨hcall, hrest⟩ := hserial
    refine ih ?_ hrest
    cases e with
    | commit tables => exact h.commit tables
    | call => exact h.call (hcall rfl)
    | turn i clock => exact h.turn i clock

/-- What is published stays published. -/
lemma published_run (w : PublishState) (events : List PublishEvent) :
    w.published <+: (w.run alphaId events).published := by
  induction events generalizing w with
  | nil => exact List.prefix_refl _
  | cons e events ih =>
    refine List.IsPrefix.trans ?_ (ih _)
    cases e with
    | commit tables => exact List.prefix_refl _
    | call => exact List.prefix_refl _
    | turn i clock =>
      cases hget : w.calls[i]? with
      | none =>
        rw [step_turn_none hget]
      | some c =>
        rw [step_turn_some hget]
        cases c with
        | begun => exact List.prefix_refl _
        | incremented revision => exact List.prefix_refl _
        | read revision version positions => exact List.prefix_append _ _

/-- The last of more writes in order has the greater revision. -/
lemma storedRevision_le {w w' : PublishState} (hordered : Ordered w'.published)
    (hmore : w.published <+: w'.published) : w.storedRevision ≤ w'.storedRevision := by
  obtain ⟨later, hlater⟩ := hmore
  unfold storedRevision stored
  cases hlast : w.published.getLast? with
  | none => exact Nat.zero_le _
  | some p =>
    rw [← hlater, List.getLast?_append]
    cases hlast' : later.getLast? with
    | none =>
      rw [hlast]
      exact le_rfl
    | some q =>
      rw [← hlater] at hordered
      have hpq := (List.pairwise_append.mp hordered).2.2 p (List.mem_of_getLast? hlast) q
        (List.mem_of_getLast? hlast')
      exact hpq.1.le

/-- One of two writes has the greater revision and has seen as much. -/
def Comparable (a b : Written) : Prop :=
  (a.snapshot.revision < b.snapshot.revision ∧ a.version ≤ b.version) ∨
    (b.snapshot.revision < a.snapshot.revision ∧ b.version ≤ a.version)

instance : Std.Symm Comparable := ⟨fun _ _ h => h.symm⟩

/-- In a run of calls that do not overlap the stored revision never decreases, a greater revision
never shows an older state, and the stored snapshot shows the database once every call has finished
and one has begun after the last commit. -/
theorem publish_serial (alphaId : String) (w : PublishState) (hordered : Ordered w.published)
    (hrevisions : ∀ p ∈ w.published, p.snapshot.revision ≤ w.revision)
    (hversions : ∀ p ∈ w.published, p.version ≤ w.version) (hcalls : w.calls = [])
    (hunpublished : w.unpublished = true) (events : List PublishEvent)
    (hserial : w.Serial alphaId events) :
    (∀ before later, events = before ++ later →
      (w.run alphaId before).storedRevision ≤ (w.run alphaId events).storedRevision) ∧
    (∀ p ∈ (w.run alphaId events).published, ∀ q ∈ (w.run alphaId events).published,
      p.snapshot.revision < q.snapshot.revision → p.version ≤ q.version) ∧
    ((w.run alphaId events).calls = [] → (w.run alphaId events).unpublished = false →
      (w.run alphaId events).UpToDate alphaId) := by
  have hstart : w.InOrder alphaId := by
    refine ⟨hordered, hrevisions, hversions, .inl hcalls, fun _ hpublished => ?_⟩
    rw [hunpublished] at hpublished
    cases hpublished
  have hend := hstart.run hserial
  refine ⟨?_, ?_, hend.upToDate⟩
  · rintro before later rfl
    have hsplit : w.run alphaId (before ++ later) = (w.run alphaId before).run alphaId later :=
      List.foldl_append
    rw [hsplit] at hend ⊢
    exact storedRevision_le hend.ordered (published_run _ _)
  · intro p hp q hq hlt
    rcases eq_or_ne p q with rfl | hne
    · exact le_rfl
    · -- of two writes one is the earlier
      have hcomparable : List.Pairwise Comparable _ := hend.ordered.imp fun h => Or.inl h
      rcases hcomparable.forall hp hq hne with hle | hgt
      · exact hle.2
      · omega

/-! ## Calls that overlap -/

/-- A position that the second call sees and the first one does not. -/
def lateRow : PositionRow where
  positionId := "p1"
  alphaId := "a"
  signalId := "open-1"
  symbol := "BTCUSDT"
  side := "LONG"
  entryPrice := some (.fin 100)
  qty := some (.fin 1)
  tp := none
  sl := none
  leverage := 1
  openedAt := "2024-01-01T00:00:00Z"
  metadata := .chars "\x7b\x7d"
  exchange := "binance"
  feePct := none

def lateTables : Tables := { Tables.empty with positions := ⟨[lateRow], by simp⟩ }

/-- Nothing is published yet. -/
def unpublishedState : PublishState where
  tables := .empty
  version := 0
  revision := 0
  published := []
  calls := []
  unpublished := true

/-- The repair loop reads before a commit, and the call after the commit overtakes it. -/
def overtaken : List PublishEvent :=
  [.call, .turn 0 "t1", .turn 0 "t2", .commit lateTables, .call, .turn 1 "t3", .turn 1 "t4",
   .turn 1 "t5"]

/-- When the overtaken call writes, the revision goes back and the position is gone from the stored
snapshot, with no call left that would publish it. -/
theorem overlap_goes_back :
    (unpublishedState.run "a" overtaken).storedRevision = 2 ∧
    (unpublishedState.run "a" (overtaken ++ [.turn 0 "t6"])).storedRevision = 1 ∧
    (unpublishedState.run "a" (overtaken ++ [.turn 0 "t6"])).calls = [] ∧
    (unpublishedState.run "a" (overtaken ++ [.turn 0 "t6"])).unpublished = false ∧
    ¬ (unpublishedState.run "a" (overtaken ++ [.turn 0 "t6"])).UpToDate "a" := by
  refine ⟨rfl, rfl, rfl, rfl, ?_⟩
  rintro ⟨snapshot, hstored, hpositions⟩
  have hlast : (unpublishedState.run "a" (overtaken ++ [.turn 0 "t6"])).stored =
      some ⟨"a", 1, "t6", (allOpenPositions .empty "a").map publishedPosition⟩ := rfl
  rw [hlast] at hstored
  cases hstored
  have hlength : ((allOpenPositions .empty "a").map publishedPosition).length =
      ((allOpenPositions lateTables "a").map publishedPosition).length :=
    congrArg List.length hpositions
  rw [List.length_map, List.length_map, allOpenPositions, allOpenPositions, List.length_mergeSort,
    List.length_mergeSort] at hlength
  exact absurd hlength (by decide)

/-- Two calls, one after the other, with a commit between them. -/
def oneByOne : List PublishEvent :=
  [.call, .turn 0 "t1", .turn 0 "t2", .turn 0 "t3", .commit lateTables, .call, .turn 0 "t4",
   .turn 0 "t5", .turn 0 "t6"]

theorem publish_serial_oneByOne : (unpublishedState.run "a" oneByOne).storedRevision = 2 ∧
    (unpublishedState.run "a" oneByOne).UpToDate "a" := by
  have hserial : unpublishedState.Serial "a" oneByOne := by
    simp [Serial, oneByOne, step, turn, unpublishedState]
  obtain ⟨-, -, hlast⟩ := publish_serial "a" unpublishedState List.Pairwise.nil
    (fun _ hp => by cases hp) (fun _ hp => by cases hp) rfl rfl oneByOne hserial
  exact ⟨rfl, hlast rfl rfl⟩

/-- Of two calls the one with the smaller revision can read after a commit that the other has not
seen. -/
theorem overlap_shows_older :
    ∃ p ∈ (unpublishedState.run "a" [.call, .turn 0 "t1", .call, .turn 1 "t2", .turn 1 "t3",
        .commit lateTables, .turn 0 "t4", .turn 1 "t5", .turn 0 "t6"]).published,
    ∃ q ∈ (unpublishedState.run "a" [.call, .turn 0 "t1", .call, .turn 1 "t2", .turn 1 "t3",
        .commit lateTables, .turn 0 "t4", .turn 1 "t5", .turn 0 "t6"]).published,
      p.snapshot.revision < q.snapshot.revision ∧ q.version < p.version := by
  refine ⟨_, List.mem_cons_of_mem _ List.mem_cons_self, _, List.mem_cons_self, ?_, ?_⟩
  · exact Nat.one_lt_two
  · exact Nat.zero_lt_one

end PublishState

end PaperTrade.Worker
