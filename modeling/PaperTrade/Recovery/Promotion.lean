import PaperTrade.Recovery.Merge
import PaperTrade.Runtime.FaultyWrites

/-!
# Promotion

`promote_validated_workspace` merges two databases and then writes the position keys of the affected
alphas to Redis. The databases commit one after the other, so a later failure has to take back what is
committed already: the backups replace both databases, and the keys are written back to what was read
of them before. The rollback uses the same files and the same Redis, and can fail too.

`Failures` says of every call whether it fails. Whatever fails, the databases end in one of two states
unless a backup cannot be put back, and a key of Redis has its old value or its new one
(`promote_allOrNothing`).
-/

namespace PaperTrade.Recovery

open PaperTrade.Runtime PaperTrade.Worker

/-! ## The workspace -/

section Promotion

variable {P T S : Type} {positionId : P → String} {tradeId : T → String} {signalRow : S → ℕ}

/-- What a promotion reads of its workspace. -/
structure Workspace (positionId : P → String) (tradeId : T → String) (signalRow : S → ℕ) where
  /-- `sha256_file(manifest_path)` -/
  manifestHash : String
  validationPassed : Bool
  /-- `manifest["artifacts"]`, where it has a string -/
  artifacts : String → Option String
  /-- `sha256_file` of the artifacts -/
  hashes : String → String
  mainGuard : List (String × String)
  equityGuard : List (String × String)
  baselineMain : MainTables positionId tradeId signalRow
  candidateMain : MainTables positionId tradeId signalRow
  baselineEquity : EquityTable
  candidateEquity : EquityTable
  redisState : Dict String Json

/-- What a promotion changes. -/
structure Production (positionId : P → String) (tradeId : T → String) (signalRow : S → ℕ) where
  main : MainTables positionId tradeId signalRow
  equity : EquityTable
  redis : Store String Text

/-- What a promotion raises. -/
inductive PromotionError
  /-- `promotion requires an explicit services-stopped acknowledgement` -/
  | servicesRunning
  /-- `approval hash does not match the validated recovery manifest` -/
  | approvalMismatch
  /-- `validation report did not pass` -/
  | notValidated
  /-- `manifest artifact hash is invalid: …` -/
  | artifactInvalid (name : String)
  /-- `artifact hash mismatch: …` -/
  | artifactMismatch (name : String)
  /-- `production main DB drifted after staging` -/
  | mainDrifted
  /-- `production equity DB drifted after staging` -/
  | equityDrifted
  /-- `invalid candidate Redis state entry: …` -/
  | invalidEntry (key : String)
  /-- what a backup or a read before the merges raises -/
  | unread
  /-- `promotion rolled back: …` -/
  | rolledBack
  /-- what putting back a backup raises -/
  | copyFailed
  /-- what writing back a key raises -/
  | restoreFailed
deriving DecidableEq

/-- Which calls fail. -/
structure Failures where
  backup : Bool
  read : String → Bool
  mainMerge : Bool
  equityMerge : Bool
  write : String → Fault
  copyMain : Fault
  copyEquity : Fault
  restore : String → Fault

/-- No call does. -/
def Failures.none : Failures :=
  ⟨false, fun _ => false, false, false, fun _ => .answered, .answered, .answered, fun _ => .answered⟩

/-! ## Guards -/

/-- `SELECT COALESCE(MAX(…), '')`. -/
def latest (texts : List String) : String := 
  texts.foldl (fun m s => if m < s then s else m) ""

/-- `(f"{table}.count", str(count))` of a table that is there. -/
def countGuard {ρ κ : Type} {key : ρ → κ} (name : String) (t : SqlTable key) :
    List (String × String) :=
  if t.columns = [] then [] else [(name, toString t.rows.rows.length)]

/-- `database_guard` of a main database. -/
def mainGuard (receivedAt : S → String) (db : MainTables positionId tradeId signalRow) :
    List (String × String) :=
  countGuard "positions.count" db.positions ++ countGuard "signals.count" db.signals ++
    (if db.signals.columns = [] then [] else
      [("signals.max_received_at", latest (db.signals.rows.rows.map receivedAt))]) ++
    countGuard "trades.count" db.trades

/-- `database_guard` of an equity database. -/
def equityGuard (db : EquityTable) : List (String × String) :=
  (if db.columns = [] then [] else
    [("equity.max_timestamp", latest (db.rows.rows.map fun r => r.timestamp))]) ++
    countGuard "equity_snapshots.count" db

/-- `_verify_artifact`. -/
def verifyArtifact (ws : Workspace positionId tradeId signalRow) (name : String) :
    Except PromotionError Unit :=
  match ws.artifacts name with
  | none => .error (.artifactInvalid name)
  | some expected =>
    if expected = ws.hashes name then .ok () else .error (.artifactMismatch name)

/-- The guards in front of the backups. -/
def verify (receivedAt : S → String) (approvalHash : String) (servicesStopped : Bool)
    (ws : Workspace positionId tradeId signalRow)
    (production : Production positionId tradeId signalRow) : Except PromotionError Unit :=
  if !servicesStopped then .error .servicesRunning
  else if ws.manifestHash ≠ approvalHash then .error .approvalMismatch
  else if !ws.validationPassed then .error .notValidated
  else do
    verifyArtifact ws "candidate_main"
    verifyArtifact ws "candidate_equity"
    verifyArtifact ws "redis_state"
    if mainGuard receivedAt production.main ≠ ws.mainGuard then .error .mainDrifted
    else if equityGuard production.equity ≠ ws.equityGuard then .error .equityDrifted
    else .ok ()

/-- `"runner:positions:"`. -/
def positionsPrefix : String := "runner:positions:"

/-- An entry of `_parse_redis_state`. -/
def parseEntry (entry : String × Json) : Except PromotionError (String × Entries) :=
  match positionsPrefix.toList.isPrefixOf entry.1.toList, entry.2.entries? with
  | true, some positions => .ok (entry.1, positions)
  | _, _ => .error (.invalidEntry entry.1)

/-- `_parse_redis_state`. -/
def parseRedisState (state : Dict String Json) : Except PromotionError (List (String × Entries)) :=
  state.rows.mapM parseEntry

/-- `key.removeprefix("runner:positions:")`. -/
def alphaOfKey (key : String) : String :=
  String.ofList (key.toList.drop positionsPrefix.toList.length)

/-- What is written for an alpha: an empty book deletes its key. -/
def candidateValue (positions : Entries) : Option Text :=
  if positions = [] then none else some (compactDumps positions)

/-- The Redis writes. -/
def candidateWrites (state : List (String × Entries)) : List (String × Option Text) :=
  state.map fun e => (e.1, candidateValue e.2)

/-! ## The guarded part -/

/-- `_atomic_copy` of a backup. -/
def copyBack {δ : Type} (fault : Fault) (backup current : δ) : δ × Bool :=
  match fault with
  | .answered => (backup, true)
  | .refused => (current, false)
  | .unanswered => (backup, false)

/-- The `except` branch. -/
def rollback (failures : Failures) (keys : List String)
    (before current : Production positionId tradeId signalRow) :
    Production positionId tradeId signalRow × PromotionError :=
  let (main, mainBack) := copyBack failures.copyMain before.main current.main
  if !mainBack then ({ current with main }, .copyFailed)
  else
    let (equity, equityBack) := copyBack failures.copyEquity before.equity current.equity
    if !equityBack then ({ current with main, equity }, .copyFailed)
    else
      let (redis, restored) := writeAll failures.restore (restoring keys before.redis) current.redis
      (⟨main, equity, redis⟩, if restored then .rolledBack else .restoreFailed)

variable [DecidableEq P] [DecidableEq T] [DecidableEq S] (alphaId : P → String)

/-- The `try` block; `false` when it raises. -/
def mergeAll (failures : Failures) (ws : Workspace positionId tradeId signalRow)
    (state : List (String × Entries)) (production : Production positionId tradeId signalRow) :
    Production positionId tradeId signalRow × Bool :=
  if failures.mainMerge then (production, false)
  else match mergeMainDatabase alphaId production.main ws.baselineMain ws.candidateMain
      ((state.map fun e => alphaOfKey e.1).insertionSort (· ≤ ·)) with
    | (main, some _) => ({ production with main }, false)
    | (main, none) =>
      if failures.equityMerge then ({ production with main }, false)
      else match mergeEquityDatabase production.equity ws.baselineEquity ws.candidateEquity with
        | (equity, some _) => ({ production with main, equity }, false)
        | (equity, none) =>
          let (redis, written) := writeAll failures.write (candidateWrites state) production.redis
          (⟨main, equity, redis⟩, written)

/-- `promote_validated_workspace`. -/
def promote (receivedAt : S → String) (approvalHash : String) (servicesStopped : Bool)
    (failures : Failures) (ws : Workspace positionId tradeId signalRow)
    (production : Production positionId tradeId signalRow) :
    Production positionId tradeId signalRow × Option PromotionError :=
  match verify receivedAt approvalHash servicesStopped ws production with
  | .error e => (production, some e)
  | .ok () =>
    if failures.backup then (production, some .unread)
    else match parseRedisState ws.redisState with
      | .error e => (production, some e)
      | .ok state =>
        if state.any fun e => failures.read e.1 then (production, some .unread)
        else match mergeAll alphaId failures ws state production with
          | (promoted, true) => (promoted, none)
          | (current, false) =>
            let (after, e) := rollback failures (state.map Prod.fst) production current
            (after, some e)

/-! ## All or nothing -/

/-- Production holds the candidate. -/
structure Promoted (ws : Workspace positionId tradeId signalRow)
    (before after : Production positionId tradeId signalRow) : Prop where
  main : after.main.Same ws.candidateMain
  equity : after.equity.Same ws.candidateEquity
  redis : ∀ key positions, (key, Json.obj positions) ∈ ws.redisState.rows →
    after.redis key = candidateValue positions
  others : ∀ key, ws.redisState.contains key = false → after.redis key = before.redis key

/-- What a promotion may leave. -/
structure AllOrNothing (ws : Workspace positionId tradeId signalRow)
    (before after : Production positionId tradeId signalRow) (raised : Option PromotionError) :
    Prop where
  /-- a promotion that returns has promoted -/
  promoted : raised = none → Promoted ws before after
  /-- one that raises has put back both databases, or could not put back a backup -/
  databases : raised ≠ none → raised ≠ some .copyFailed →
    after.main = before.main ∧ after.equity = before.equity
  /-- and the keys, unless writing them back failed as well -/
  keys : raised ≠ none → raised ≠ some .copyFailed → raised ≠ some .restoreFailed →
    after.redis = before.redis
  /-- no key ever has a third value -/
  between : ∀ key, after.redis key = before.redis key ∨
    ∃ positions, (key, Json.obj positions) ∈ ws.redisState.rows ∧
      after.redis key = candidateValue positions

/-! ## The run -/

variable {alphaId : P → String} {ws : Workspace positionId tradeId signalRow}
  {before current production : Production positionId tradeId signalRow} {failures : Failures}
  {state : List (String × Entries)}

omit [DecidableEq P] [DecidableEq T] [DecidableEq S] in
/-- The state that is parsed has the entries of the file. -/
lemma parseRedisState_ok {rows : Dict String Json} (h : parseRedisState rows = .ok state) :
    rows.rows = state.map fun e => (e.1, Json.obj e.2) := by
  have hgrow : ∀ (l : List (String × Json)) (state : List (String × Entries)),
      l.mapM parseEntry = .ok state → l = state.map fun e => (e.1, Json.obj e.2) := by
    intro l
    induction l with
    | nil =>
      intro state h
      cases h
      rfl
    | cons e l ih =>
      intro state h
      rw [List.mapM_cons] at h
      obtain ⟨parsed, hparsed, h⟩ := bind_eq_ok h
      obtain ⟨rest, hrest, h⟩ := bind_eq_ok h
      cases h
      rw [ih rest hrest, List.map_cons]
      obtain ⟨key, value⟩ := e
      unfold parseEntry at hparsed
      split at hparsed
      · rename_i positions hprefix hentries
        cases hparsed
        cases value with
        | obj entries =>
          cases hentries
          rfl
        | _ => cases hentries
      · cases hparsed
  exact hgrow rows.rows state h

omit [DecidableEq P] [DecidableEq T] [DecidableEq S] in
lemma map_fst_candidateWrites : (candidateWrites state).map Prod.fst = state.map Prod.fst := by
  rw [candidateWrites, List.map_map]
  rfl

/-- The keys after the writes, wherever they stop. -/
structure Halfway (state : List (String × Entries))
    (before current : Production positionId tradeId signalRow) : Prop where
  others : ∀ key, key ∉ state.map Prod.fst → current.redis key = before.redis key
  listed : ∀ e ∈ state, current.redis e.1 = before.redis e.1 ∨
    current.redis e.1 = candidateValue e.2

omit [DecidableEq P] [DecidableEq T] [DecidableEq S] in
lemma Halfway.of_redis (h : current.redis = before.redis) : Halfway state before current :=
  ⟨fun key _ => by rw [h], fun e _ => .inl (by rw [h])⟩

omit [DecidableEq P] [DecidableEq T] [DecidableEq S] in
lemma Halfway.of_writes (failures : Failures) (hnodup : (state.map Prod.fst).Nodup)
    (h : current.redis = (writeAll failures.write (candidateWrites state) before.redis).1) :
    Halfway state before current := by
  refine ⟨fun key hkey => ?_, fun e he => ?_⟩
  · rw [h, writeAll_unlisted]
    rwa [map_fst_candidateWrites]
  · rw [h]
    exact writeAll_between (map_fst_candidateWrites ▸ hnodup) (List.mem_map.mpr ⟨e, he, rfl⟩)

/-- What the guarded part leaves. -/
structure Merged (ws : Workspace positionId tradeId signalRow) (state : List (String × Entries))
    (before : Production positionId tradeId signalRow)
    (result : Production positionId tradeId signalRow × Bool) : Prop where
  halfway : Halfway state before result.1
  main : result.2 = true → result.1.main.Same ws.candidateMain
  equity : result.2 = true → result.1.equity.Same ws.candidateEquity
  written : result.2 = true → ∀ e ∈ state, result.1.redis e.1 = candidateValue e.2

lemma merged_mergeAll (hnodup : (state.map Prod.fst).Nodup) :
    Merged ws state before (mergeAll alphaId failures ws state before) := by
  have hstopped : ∀ current : Production positionId tradeId signalRow,
      current.redis = before.redis → Merged ws state before (current, false) := by
    intro current hredis
    refine ⟨.of_redis hredis, ?_, ?_, ?_⟩ <;> exact fun h => absurd h Bool.false_ne_true
  unfold mergeAll
  split
  · exact hstopped before rfl
  split
  · exact hstopped _ rfl
  rename_i main hmerged
  split
  · exact hstopped _ rfl
  split
  · exact hstopped _ rfl
  rename_i equity hequityMerged
  have hmain : main.Same ws.candidateMain := by
    have hreturned := mergeable_of_returned (congrArg Prod.snd hmerged)
    rw [hmerged] at hreturned
    exact hreturned.2
  have hequity : equity.Same ws.candidateEquity := by
    have hreturned := equityMergeable_of_returned (congrArg Prod.snd hequityMerged)
    rw [hequityMerged] at hreturned
    exact hreturned.2
  refine ⟨.of_writes failures hnodup rfl, fun _ => hmain, fun _ => hequity, ?_⟩
  intro hwritten e he
  exact writeAll_written (map_fst_candidateWrites ▸ hnodup) hwritten (List.mem_map.mpr ⟨e, he, rfl⟩)

omit [DecidableEq P] [DecidableEq T] [DecidableEq S] in
/-- The keys of the file are those of the parsed state. -/
lemma map_fst_parsed {rows : Dict String Json} (h : parseRedisState rows = .ok state) :
    rows.rows.map Prod.fst = state.map Prod.fst := by
  rw [parseRedisState_ok h, List.map_map]
  rfl

omit [DecidableEq P] [DecidableEq T] [DecidableEq S] in
/-- A guarded part that went through has promoted. -/
lemma Merged.promoted {promoted : Production positionId tradeId signalRow}
    (h : Merged ws state before (promoted, true)) (hparsed : parseRedisState ws.redisState = .ok state) :
    Promoted ws before promoted where
  main := h.main rfl
  equity := h.equity rfl
  redis key positions hmem := by
    rw [parseRedisState_ok hparsed] at hmem
    obtain ⟨e, he, heq⟩ := List.mem_map.mp hmem
    obtain ⟨rfl, hpositions⟩ := Prod.mk.inj heq
    rw [h.written rfl e he, Json.obj.inj hpositions]
  others key hkey := by
    refine h.halfway.others key fun hmem => ?_
    rw [← map_fst_parsed hparsed] at hmem
    obtain ⟨e, he, rfl⟩ := List.mem_map.mp hmem
    exact (Table.not_contains_iff _ _).mp hkey e he rfl

/-- What the rollback leaves. -/
structure RolledBack (state : List (String × Entries))
    (before : Production positionId tradeId signalRow)
    (result : Production positionId tradeId signalRow × PromotionError) : Prop where
  halfway : Halfway state before result.1
  databases : result.2 ≠ .copyFailed →
    result.1.main = before.main ∧ result.1.equity = before.equity
  keys : result.2 ≠ .copyFailed → result.2 ≠ .restoreFailed → result.1.redis = before.redis

omit [DecidableEq P] [DecidableEq T] [DecidableEq S] in
lemma copyBack_done {δ : Type} {fault : Fault} {backup current : δ}
    (h : (copyBack fault backup current).2 = true) : (copyBack fault backup current).1 = backup := by
  cases fault with
  | answered => rfl
  | refused => cases h
  | unanswered => rfl

omit [DecidableEq P] [DecidableEq T] [DecidableEq S] in
lemma rolledBack_rollback (hnodup : (state.map Prod.fst).Nodup)
    (hhalfway : Halfway state before current) :
    RolledBack state before (rollback failures (state.map Prod.fst) before current) := by
  have hcopy : ∀ after : Production positionId tradeId signalRow, after.redis = current.redis →
      RolledBack state before (after, .copyFailed) := by
    intro after hredis
    refine ⟨⟨fun key hkey => ?_, fun e he => ?_⟩, fun h => absurd rfl h, fun h => absurd rfl h⟩
    · rw [hredis, hhalfway.others key hkey]
    · rw [hredis]
      exact hhalfway.listed e he
  unfold rollback
  dsimp only
  split
  · exact hcopy _ rfl
  rename_i hmain
  split
  · exact hcopy _ rfl
  rename_i hequity
  have hmain := copyBack_done (by simpa using hmain)
  have hequity := copyBack_done (by simpa using hequity)
  refine ⟨⟨fun key hkey => ?_, fun e he => ?_⟩, fun _ => ⟨hmain, hequity⟩, fun _ hrestored => ?_⟩
  · dsimp only
    rw [writeAll_unlisted (by rwa [map_fst_restoring])]
    exact hhalfway.others key hkey
  · dsimp only
    rcases restoring_between failures.restore before.redis current.redis e.1 hnodup with heq | heq
    · rw [heq]
      exact hhalfway.listed e he
    · exact .inl heq
  · refine writeAll_restores hnodup hhalfway.others ?_
    by_contra hnot
    exact hrestored (if_neg hnot)

/-- Whatever fails: a promotion that returns has promoted all three stores; one that raises has put back
both databases unless a backup cannot be put back, and the keys as well unless Redis fails again; and no
key has any other value than before or after. -/
theorem promote_allOrNothing (alphaId : P → String) (receivedAt : S → String) (approvalHash : String)
    (servicesStopped : Bool) (failures : Failures) (ws : Workspace positionId tradeId signalRow)
    (before : Production positionId tradeId signalRow) :
    AllOrNothing ws before
      (promote alphaId receivedAt approvalHash servicesStopped failures ws before).1
      (promote alphaId receivedAt approvalHash servicesStopped failures ws before).2 := by
  have hunchanged : ∀ e : PromotionError, AllOrNothing ws before before (some e) := fun e =>
    ⟨fun h => absurd h (Option.some_ne_none e), fun _ _ => ⟨rfl, rfl⟩, fun _ _ _ => rfl,
      fun _ => .inl rfl⟩
  unfold promote
  split
  · exact hunchanged _
  split
  · exact hunchanged _
  split
  · exact hunchanged _
  rename_i state hparsed
  have hnodup : (state.map Prod.fst).Nodup := map_fst_parsed hparsed ▸ ws.redisState.nodup_keys
  have hbetween : ∀ after : Production positionId tradeId signalRow, Halfway state before after →
      ∀ key, after.redis key = before.redis key ∨
        ∃ positions, (key, Json.obj positions) ∈ ws.redisState.rows ∧
          after.redis key = candidateValue positions := by
    intro after hhalfway key
    by_cases hkey : key ∈ state.map Prod.fst
    · obtain ⟨e, he, rfl⟩ := List.mem_map.mp hkey
      refine (hhalfway.listed e he).imp_right fun hvalue => ⟨e.2, ?_, hvalue⟩
      rw [parseRedisState_ok hparsed]
      exact List.mem_map.mpr ⟨e, he, rfl⟩
    · exact .inl (hhalfway.others key hkey)
  have hmerged : Merged ws state before (mergeAll alphaId failures ws state before) :=
    merged_mergeAll hnodup
  split
  · exact hunchanged _
  split
  · rename_i promoted hresult
    rw [hresult] at hmerged
    exact ⟨fun _ => hmerged.promoted hparsed, fun h => absurd rfl h, fun h => absurd rfl h,
      hbetween promoted hmerged.halfway⟩
  · rename_i current hresult
    rw [hresult] at hmerged
    have hback : RolledBack state before (rollback failures (state.map Prod.fst) before current) :=
      rolledBack_rollback hnodup hmerged.halfway
    dsimp only
    refine ⟨fun h => absurd h (Option.some_ne_none _), fun _ hcopy => hback.databases ?_,
      fun _ hcopy hrestore => hback.keys ?_ ?_, hbetween _ hback.halfway⟩
    · exact fun heq => hcopy (congrArg some heq)
    · exact fun heq => hcopy (congrArg some heq)
    · exact fun heq => hrestore (congrArg some heq)

end Promotion

end PaperTrade.Recovery
