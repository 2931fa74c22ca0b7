import Mathlib.Data.String.Basic
import PaperTrade.Recovery.EquityCandidate
import PaperTrade.Recovery.Promotion
import PaperTrade.Worker.VirtualLedger

/-!
# A staged recovery from its build to its promotion

`build_staged_recovery` takes snapshots of both databases, builds the candidates of a ledger, derives
the position keys of the affected alphas from the main candidate and records hashes and watermarks in a
manifest. When production has not moved since and nothing fails, promoting that workspace goes through
(`staged_recovery_promotes`): no guard, no comparison of the merges and no key can stop it.

The capture of the market, the replay that makes the ledger and the files themselves are left out; the
hashes and the outcome of the validation are inputs.
-/

namespace PaperTrade.Recovery

open PaperTrade.Runtime PaperTrade.Worker

/-! ## The position keys -/

/-- What stops a build. -/
inductive StageError
  | main (e : CandidateError)
  | equity (e : EquityError)
  /-- the metadata of a position is no JSON, or no object -/
  | metadata (positionId : String)
  | python (e : PyError)

/-- `json.loads(row["metadata"] or "{}")`, of which `get` is called. -/
def positionMetadata (p : PositionRow) : Except StageError Entries :=
  match p.metadata.loadsOrEmpty with
  | some (.obj entries) => .ok entries
  | _ => .error (.metadata p.positionId)

/-- `float(metadata.get(key, default))`. -/
def metadataFloat (metadata : Entries) (key : String) (default : Option PyFloat) :
    Except PyError PyFloat :=
  match metadata.get? key with
  | some v => jsonFloat v
  | none => need default

/-- The payload of a position. -/
def redisPosition (p : PositionRow) : Except StageError Json := do
  let metadata ← positionMetadata p
  Except.mapError .python do
    let entry ← metadataFloat metadata "decision_price" p.entryPrice
    let qty ← need p.qty
    let weight ← metadataFloat metadata "weight" (some 0)
    let leverage ← metadataFloat metadata "strategy_leverage" (some 1)
    let candle ← ((metadata.get? "entry_candle_open_ms").getD (.int 0)).toInt.mapError .intOf
    pure (.obj [("position_id", .str p.positionId), ("symbol", .str p.symbol), ("side", .str p.side),
      ("entry", .float entry), ("qty", .float qty), ("weight", .float weight),
      ("strategy_leverage", .float leverage), ("entry_candle_open_ms", .int candle)])

/-- The book of an alpha; `ORDER BY symbol`. -/
def redisBook (candidate : MainDb) (alphaId : String) : Except StageError (String × Json) := do
  let rows := (candidate.positions.rows.filter fun p => p.alphaId = alphaId).mergeSort
    fun p q => p.symbol ≤ q.symbol
  let book ← rows.foldlM (fun (book : Entries) p => do
    let position ← redisPosition p
    pure (book.set p.symbol position)) []
  pure (positionsPrefix ++ alphaId, .obj book)

/-- `write_candidate_redis_state`. -/
def candidateRedisState (candidate : MainDb) (ledger : List LedgerEntry) :
    Except StageError (Dict String Json) := do
  let books ← ((affectedAlphas ledger).insertionSort (· ≤ ·)).mapM (redisBook candidate)
  pure (Dict.collect some books)

/-! ## The build -/

/-- What a build takes from outside. -/
structure StageInputs where
  recoveredAt : String
  equity : EquityInputs
  /-- `sha256_file` of the artifacts -/
  hashes : String → String
  manifestHash : String
  /-- `report.passed` -/
  validation : MainDb → EquityTable → Bool

/-- The workspace of a recovery. -/
abbrev StagedWorkspace : Type :=
  Workspace PositionRow.positionId TradeRow.tradeId StoredSignal.id

/-- `build_staged_recovery`, from the ledger on. -/
def buildStagedRecovery (inputs : StageInputs) (ledger : List LedgerEntry) (main : MainDb)
    (equity : EquityTable) : Except StageError StagedWorkspace := do
  let candidateMain ←
    (buildMainCandidate inputs.recoveredAt (.fin (1 / 20)) ledger main).mapError .main
  let candidateEquity ←
    (buildEquityCandidate inputs.equity candidateMain ledger equity).mapError .equity
  let redisState ← candidateRedisState candidateMain ledger
  pure {
    manifestHash := inputs.manifestHash
    validationPassed := inputs.validation candidateMain candidateEquity
    artifacts := fun name => some (inputs.hashes name)
    hashes := inputs.hashes
    mainGuard := mainGuard StoredSignal.receivedAt main.tables
    equityGuard := equityGuard equity
    baselineMain := main.tables
    candidateMain := candidateMain.tables
    baselineEquity := equity
    candidateEquity
    redisState }

/-! ## Watermarks -/

section Guards

lemma latest_perm {l l' : List String} (h : l.Perm l') : latest l = latest l' := by
  have hcomm : RightCommutative fun m s : String => if m < s then s else m := by
    refine ⟨fun a b c => ?_⟩
    have hmax : ∀ m s : String, (if m < s then s else m) = max m s := by
      intro m s
      rcases lt_or_ge m s with hlt | hge
      · rw [if_pos hlt, max_eq_right hlt.le]
      · rw [if_neg hge.not_gt, max_eq_left hge]
    simp only [hmax]
    exact max_right_comm a b c
  exact h.foldl_eq _

lemma countGuard_of_same {ρ κ : Type} {key : ρ → κ} {l r : SqlTable key} (h : l.Same r)
    (name : String) : countGuard name l = countGuard name r := by
  unfold countGuard
  rw [h.columns, h.rows.perm.length_eq]

lemma mainGuard_of_same {P T S : Type} {positionId : P → String} {tradeId : T → String}
    {signalRow : S → ℕ} {a b : MainTables positionId tradeId signalRow} (h : a.Same b)
    (receivedAt : S → String) : mainGuard receivedAt a = mainGuard receivedAt b := by
  unfold mainGuard
  rw [countGuard_of_same h.positions, countGuard_of_same h.trades, countGuard_of_same h.signals,
    h.signals.columns, latest_perm (h.signals.rows.perm.map receivedAt)]

lemma equityGuard_of_same {a b : EquityTable} (h : a.Same b) : equityGuard a = equityGuard b := by
  unfold equityGuard
  rw [countGuard_of_same h, h.columns, latest_perm (h.rows.perm.map _)]

end Guards

/-! ## The keys of a build -/

section Keys

variable {candidate : MainDb} {ledger : List LedgerEntry} {redisState : Dict String Json}

lemma mem_sorted_affected {a : String} :
    a ∈ (affectedAlphas ledger).insertionSort (· ≤ ·) ↔ ∃ entry ∈ ledger, entry.alphaId = a := by
  rw [(List.perm_insertionSort _ _).mem_iff, affectedAlphas, List.mem_dedup, List.mem_map]

lemma redisBook_ok {a : String} {entry : String × Json} (h : redisBook candidate a = .ok entry) :
    entry.1 = positionsPrefix ++ a ∧ ∃ book, entry.2 = .obj book := by
  obtain ⟨book, -, h⟩ := bind_eq_ok h
  cases h
  exact ⟨rfl, book, rfl⟩

/-- An entry of the state is the book of an alpha of the ledger. -/
lemma mem_candidateRedisState (h : candidateRedisState candidate ledger = .ok redisState)
    {entry : String × Json} (hentry : entry ∈ redisState.rows) :
    (∃ a, entry.1 = positionsPrefix ++ a) ∧ ∃ book, entry.2 = .obj book := by
  obtain ⟨books, hbooks, h⟩ := bind_eq_ok h
  cases h
  obtain ⟨book, hbook, hsome⟩ := Dict.mem_collect some hentry
  obtain rfl := Option.some.inj hsome
  obtain ⟨a, -, ha⟩ := mem_of_mapM_ok hbooks hbook
  exact ⟨⟨a, (redisBook_ok ha).1⟩, (redisBook_ok ha).2⟩

/-- Every alpha of the ledger has its key. -/
lemma contains_candidateRedisState (h : candidateRedisState candidate ledger = .ok redisState)
    {entry : LedgerEntry} (hentry : entry ∈ ledger) :
    redisState.contains (positionsPrefix ++ entry.alphaId) = true := by
  obtain ⟨books, hbooks, h⟩ := bind_eq_ok h
  cases h
  obtain ⟨book, hbook, ha⟩ :=
    exists_of_mapM_ok hbooks (mem_sorted_affected.mpr ⟨entry, hentry, rfl⟩)
  refine (Dict.contains_collect some books _).mpr ⟨book, hbook, book.2, ?_⟩
  rw [← (redisBook_ok ha).1]

/-- The alpha of a key that was made for it. -/
lemma alphaOfKey_positionsPrefix (a : String) : alphaOfKey (positionsPrefix ++ a) = a := by
  unfold alphaOfKey
  rw [String.toList_append, List.drop_left, String.ofList_toList]

lemma isPrefixOf_positionsPrefix (a : String) :
    positionsPrefix.toList.isPrefixOf (positionsPrefix ++ a).toList = true := by
  rw [String.toList_append, List.isPrefixOf_iff_prefix]
  exact List.prefix_append _ _

/-- The state of a build is parsed. -/
lemma exists_parsed (h : candidateRedisState candidate ledger = .ok redisState) :
    ∃ state, parseRedisState redisState = .ok state := by
  refine exists_mapM_ok fun entry hentry => ?_
  obtain ⟨⟨a, hkey⟩, book, hbook⟩ := mem_candidateRedisState h hentry
  refine ⟨(entry.1, book), ?_⟩
  unfold parseEntry
  rw [hkey, hbook, isPrefixOf_positionsPrefix]
  rfl

/-- The alphas of the parsed state have those of the ledger. -/
lemma mem_parsed_alphas {state : List (String × Entries)}
    (h : candidateRedisState candidate ledger = .ok redisState)
    (hparsed : parseRedisState redisState = .ok state) {entry : LedgerEntry} (hentry : entry ∈ ledger) :
    entry.alphaId ∈ (state.map fun e => alphaOfKey e.1).insertionSort (· ≤ ·) := by
  obtain ⟨row, hrow, hkey⟩ := (Table.contains_iff _ _).mp (contains_candidateRedisState h hentry)
  rw [parseRedisState_ok hparsed] at hrow
  obtain ⟨e, he, rfl⟩ := List.mem_map.mp hrow
  rw [(List.perm_insertionSort _ _).mem_iff]
  refine List.mem_map.mpr ⟨e, he, ?_⟩
  show alphaOfKey e.1 = _
  rw [show e.1 = _ from hkey, alphaOfKey_positionsPrefix]

end Keys

/-! ## The promotion of a build -/

section Promotes

variable {inputs : StageInputs} {ledger : List LedgerEntry} {main : MainDb} {equity : EquityTable}
  {ws : StagedWorkspace}
  {production : Production PositionRow.positionId TradeRow.tradeId StoredSignal.id}

/-- What a build has put into its workspace. -/
structure Built (inputs : StageInputs) (ledger : List LedgerEntry) (main : MainDb)
    (equity : EquityTable) (ws : StagedWorkspace) (candidate : MainDb) : Prop where
  builtMain : buildMainCandidate inputs.recoveredAt (.fin (1 / 20)) ledger main = .ok candidate
  builtEquity : buildEquityCandidate inputs.equity candidate ledger equity = .ok ws.candidateEquity
  builtRedis : candidateRedisState candidate ledger = .ok ws.redisState
  manifestHash : ws.manifestHash = inputs.manifestHash
  artifacts : ∀ name, ws.artifacts name = some (ws.hashes name)
  mainGuard : ws.mainGuard = Recovery.mainGuard StoredSignal.receivedAt main.tables
  equityGuard : ws.equityGuard = Recovery.equityGuard equity
  baselineMain : ws.baselineMain = main.tables
  candidateMain : ws.candidateMain = candidate.tables
  baselineEquity : ws.baselineEquity = equity

lemma built_of_ok (h : buildStagedRecovery inputs ledger main equity = .ok ws) :
    ∃ candidate, Built inputs ledger main equity ws candidate := by
  obtain ⟨candidate, hmain, h⟩ := bind_eq_ok h
  obtain ⟨candidateEquity, hequity, h⟩ := bind_eq_ok h
  obtain ⟨redisState, hredis, h⟩ := bind_eq_ok h
  cases h
  exact ⟨candidate, ok_of_mapError hmain, ok_of_mapError hequity, hredis, rfl, fun _ => rfl, rfl, rfl,
    rfl, rfl, rfl⟩

variable {candidate : MainDb}

/-- No guard stops the promotion of a build into a production that has not moved. -/
lemma Built.verifies (h : Built inputs ledger main equity ws candidate)
    (hvalid : ws.validationPassed = true) (hmain : production.main.Same main.tables)
    (hequity : production.equity.Same equity) :
    verify StoredSignal.receivedAt inputs.manifestHash true ws production = .ok () := by
  have hartifact : ∀ name, verifyArtifact ws name = .ok () := by
    intro name
    unfold verifyArtifact
    rw [h.artifacts name]
    exact if_pos rfl
  have hmainGuard : Recovery.mainGuard StoredSignal.receivedAt production.main = ws.mainGuard :=
    (mainGuard_of_same hmain _).trans h.mainGuard.symm
  have hequityGuard : Recovery.equityGuard production.equity = ws.equityGuard :=
    (equityGuard_of_same hequity).trans h.equityGuard.symm
  unfold verify
  rw [hvalid, h.manifestHash, hmainGuard, hequityGuard]
  simp [hartifact, bind, Except.bind]

/-- The guarded part goes through as well. -/
lemma Built.merges (h : Built inputs ledger main equity ws candidate) (hledger : ledger ≠ [])
    (hmain : production.main.Same main.tables) (hequity : production.equity.Same equity)
    {state : List (String × Entries)} (hparsed : parseRedisState ws.redisState = .ok state) :
    ∃ promoted, mergeAll PositionRow.alphaId Failures.none ws state production = (promoted, true) := by
  have halphas : ∀ entry ∈ ledger,
      entry.alphaId ∈ (state.map fun e => alphaOfKey e.1).insertionSort (· ≤ ·) :=
    fun entry hentry => mem_parsed_alphas h.builtRedis hparsed hentry
  have hnonempty : (state.map fun e => alphaOfKey e.1).insertionSort (· ≤ ·) ≠ [] := by
    obtain ⟨entry, hentry⟩ := List.exists_mem_of_ne_nil _ hledger
    exact List.ne_nil_of_mem (halphas entry hentry)
  obtain ⟨merged, hmerged, -⟩ := (mergeable_of_extends hnonempty hmain
    (extends_buildMainCandidate halphas h.builtMain)).merges
  obtain ⟨mergedEquity, hmergedEquity, -⟩ := (equityMergeable_of_built h.builtEquity hequity).merges
  have hwritten : (writeAll Failures.none.write (candidateWrites state) production.redis).2 = true :=
    writeAll_answered _ fun _ _ => rfl
  refine ⟨⟨merged, mergedEquity,
    (writeAll Failures.none.write (candidateWrites state) production.redis).1⟩, ?_⟩
  unfold mergeAll
  rw [h.baselineMain, h.candidateMain, hmerged, h.baselineEquity, hmergedEquity]
  exact Prod.ext rfl hwritten

/-- A build over a ledger that is not empty is promoted: given its manifest hash, with a validation that
passed and stopped services, into a production that still has the rows of both snapshots, when no call
fails. Production then holds the candidates, and the books of the affected alphas. -/
theorem staged_recovery_promotes (inputs : StageInputs) (ledger : List LedgerEntry) (main : MainDb)
    (equity : EquityTable) (ws : StagedWorkspace)
    (production : Production PositionRow.positionId TradeRow.tradeId StoredSignal.id)
    (hledger : ledger ≠ []) (hbuilt : buildStagedRecovery inputs ledger main equity = .ok ws)
    (hvalid : ws.validationPassed = true) (hmain : production.main.Same main.tables)
    (hequity : production.equity.Same equity) :
    ∃ promoted, promote PositionRow.alphaId StoredSignal.receivedAt inputs.manifestHash true
        Failures.none ws production = (promoted, none) ∧ Promoted ws production promoted := by
  obtain ⟨candidate, hbuilt⟩ := built_of_ok hbuilt
  obtain ⟨state, hparsed⟩ := exists_parsed hbuilt.builtRedis
  obtain ⟨promoted, hmerged⟩ := hbuilt.merges hledger hmain hequity hparsed
  have hnodup : (state.map Prod.fst).Nodup := map_fst_parsed hparsed ▸ ws.redisState.nodup_keys
  have hresult : Merged ws state production
      (mergeAll PositionRow.alphaId Failures.none ws state production) := merged_mergeAll hnodup
  rw [hmerged] at hresult
  refine ⟨promoted, ?_, hresult.promoted hparsed⟩
  have hreads : (state.any fun e => Failures.none.read e.1) = false :=
    List.any_eq_false.mpr fun _ _ => Bool.false_ne_true
  have hbackup : Failures.none.backup = false := rfl
  unfold promote
  rw [hbuilt.verifies hvalid hmain hequity]
  simp only [hparsed, hreads, hmerged, hbackup, Bool.false_eq_true, if_false]

end Promotes

def freeStage : StageInputs where
  recoveredAt := "now"
  equity := freeInputs
  hashes name := name
  manifestHash := "hash"
  validation _ _ := true

/-- The staged close of a position whose fee is zero. -/
theorem staged_recovery_promotes_free : ∃ ws promoted,
    buildStagedRecovery freeStage [closeFree 0] freeDb freeEquity = .ok ws ∧
      promote PositionRow.alphaId StoredSignal.receivedAt "hash" true Failures.none ws
        ⟨freeDb.tables, freeEquity, fun _ => none⟩ = (promoted, none) ∧
      Promoted ws ⟨freeDb.tables, freeEquity, fun _ => none⟩ promoted := by
  have hbuilt : (buildStagedRecovery freeStage [closeFree 0] freeDb freeEquity).isOk = true := by
    decide +kernel
  cases hws : buildStagedRecovery freeStage [closeFree 0] freeDb freeEquity with
  | error e =>
    rw [hws] at hbuilt
    cases hbuilt
  | ok ws =>
    have hvalid : ws.validationPassed = true := by
      obtain ⟨_, -, h⟩ := bind_eq_ok hws
      obtain ⟨_, -, h⟩ := bind_eq_ok h
      obtain ⟨_, -, h⟩ := bind_eq_ok h
      cases h
      rfl
    obtain ⟨promoted, hpromoted⟩ := staged_recovery_promotes freeStage [closeFree 0] freeDb freeEquity
      ws ⟨freeDb.tables, freeEquity, fun _ => none⟩ (List.cons_ne_nil _ _) hws hvalid
      (same_tables freeDb) ⟨List.cons_ne_nil _ _, rfl, .refl _⟩
    exact ⟨ws, promoted, rfl, hpromoted⟩

end PaperTrade.Recovery
