import PaperTrade.Runner.CacheGaps

/-!
# Warm-up

`WarmupManager`: it fills the shared cache from the snapshots and from the backend until the
requirements are met, and after a synchronised warm-up sets for each timeframe the baseline below
which the cache takes no more candles. The snapshot reader, the backend and the order in which its
batches complete are the world of a call.

A call is one step here: its semaphore, rate limit and time-outs only take time, and candles that arrive
while it waits are upserts before or after it. The cache of responses is left out: it is asked only for
batches that were just found unsatisfied, and then never answers.
-/

namespace PaperTrade.Runner

open PaperTrade.Runtime

/-- `WarmupRequirement`. -/
structure WarmupRequirement where
  symbol : String
  tf : String
  bars : ℕ
deriving DecidableEq

/-- Its place in the cache. -/
def WarmupRequirement.key (req : WarmupRequirement) : CacheKey := (req.symbol, req.tf)

/-- The order of the fields. -/
def WarmupRequirement.le (a b : WarmupRequirement) : Bool :=
  a.symbol < b.symbol ||
    (a.symbol = b.symbol && (a.tf < b.tf || (a.tf = b.tf && decide (a.bars ≤ b.bars))))

/-- `sorted` of requirements. -/
def sortRequirements (reqs : List WarmupRequirement) : List WarmupRequirement :=
  reqs.insertionSort fun a b => a.le b

/-- `bars_bucket`. -/
def barsBucket (bars : ℕ) : String :=
  if bars ≤ 500 then "le_500" else if bars ≤ 2000 then "le_2000" else "gt_2000"

/-- `_tf_ms`. -/
def tfMs (tf : String) : ℤ :=
  (if tf = "1m" then 1 else if tf = "5m" then 5 else if tf = "15m" then 15 else if tf = "30m" then 30
    else if tf = "1h" then 60 else if tf = "4h" then 240 else if tf = "1d" then 1440 else 1) * 60 * 1000

/-- What the backend returns; `failed` is a time-out, an exception or a value of another type. -/
inductive BackendResult where
  | failed
  | keys (loaded : List CacheKey)
  | candles (result : Dict CacheKey (List RawCandle))

/-- What a strategy needs to be warm. -/
structure WarmupStrategy where
  symbols : List String
  tfs : List String
  bars : String → ℕ
  retainBars : String → ℤ
  retainBufferBars : String → ℤ

/-- `ReadySignal`, as far as it is read. -/
structure ReadySignal where
  partialSymbols : Dict String ℚ
  insufficientSymbols : List String

/-- What answers a call: the snapshots, at first and when they are read again, the backend, and the
groups in which its batches complete. -/
structure WarmupWorld where
  now : ℚ
  load : WarmupRequirement → List RawCandle
  reload : ℕ → WarmupRequirement → List RawCandle
  backend : List WarmupRequirement → BackendResult
  completed : List (List WarmupRequirement) → List (List (List WarmupRequirement))
  completed_perm : ∀ chunks, (completed chunks).flatten.Perm chunks

/-- A `WarmupManager`. -/
structure WarmupManager where
  cache : SharedCandleCache
  hasSnapshotReader : Bool := true
  skipGapCheck : Bool := false
  maxSymbolsPerRequest : ℕ := 10
  excludedSymbols : List String := []
  requirements : Dict CacheKey ℕ := .empty
  warmupBaselineTs : Dict String ℤ := .empty
  strategies : Option (List WarmupStrategy) := none

namespace WarmupManager

/-- `WarmupManager(SharedCandleCache(floor), ..)`. -/
def new (floor : ℕ) (hasSnapshotReader skipGapCheck : Bool) (maxSymbolsPerRequest : ℕ) :
    WarmupManager where
  cache := { dataMaxCandlesFloor := floor }
  hasSnapshotReader := hasSnapshotReader
  skipGapCheck := skipGapCheck
  maxSymbolsPerRequest := maxSymbolsPerRequest

variable (m : WarmupManager) (world : WarmupWorld)

/-- `_cache_satisfies_symbol`. -/
def cacheSatisfiesSymbol (now : ℚ) (key : CacheKey) (bars : ℕ) (maxAgeSec : Option ℚ) : Bool :=
  m.cache.hasRequiredBars key bars &&
    (match maxAgeSec with
      | none => true
      | some maxAge => m.cache.hasFreshData now key bars maxAge) &&
    (m.skipGapCheck || (m.cache.verifyNoGaps key none).isClean)

/-- `_cache_satisfies`. -/
def cacheSatisfies (now : ℚ) (req : WarmupRequirement) (maxAgeSec : Option ℚ) : Bool :=
  m.cacheSatisfiesSymbol now req.key req.bars maxAgeSec

/-- `collect_requirements`. -/
def collectRequirements (strategies : List WarmupStrategy) : WarmupManager :=
  let all := strategies.flatMap fun s => s.tfs.flatMap fun tf =>
    s.symbols.map fun symbol => (s, tf, symbol)
  let result := all.foldl (fun (d : Dict CacheKey ℕ) e =>
    d.set (e.2.2, e.2.1) (max ((d.get? (e.2.2, e.2.1)).getD 0) (e.1.bars e.2.1))) .empty
  let cache := all.foldl (fun c e => c.registerDataRequirement (e.2.2, e.2.1) (e.1.bars e.2.1)
    (some (e.1.retainBars e.2.1)) (e.1.retainBufferBars e.2.1)) m.cache
  { m with cache, requirements := result, strategies := some strategies }

/-- `strategy_ready`. -/
def strategyReady (now : ℚ) (strategy : WarmupStrategy) (minCoverage : ℚ) (maxAgeSec : Option ℚ) :
    Bool :=
  let symbols := strategy.symbols.filter (· ∉ m.excludedSymbols)
  if symbols = [] then true
  else strategy.tfs.all fun tf =>
    let loaded := (symbols.filter fun symbol =>
      m.cacheSatisfiesSymbol now (symbol, tf) (strategy.bars tf) maxAgeSec).length
    let pct : ℚ := loaded / symbols.length
    let required := max 1 ⌊symbols.length * minCoverage + 0.999999⌋
    required ≤ loaded ∧ minCoverage ≤ pct

/-- `_all_strategies_ready`. -/
def allStrategiesReady (now : ℚ) (minCoverage : Option ℚ) (maxAgeSec : Option ℚ) : Bool :=
  match minCoverage, m.strategies with
  | some minCoverage, some strategies =>
    strategies ≠ [] ∧ strategies.all fun strategy => m.strategyReady now strategy minCoverage maxAgeSec
  | _, _ => false

/-- `missing_requirements`. -/
def missingRequirements (now : ℚ) (requirements : Dict CacheKey ℕ) (maxAgeSec : Option ℚ) :
    List WarmupRequirement :=
  sortRequirements ((requirements.rows.filter fun r =>
    r.1.1 ∉ m.excludedSymbols ∧ m.cacheSatisfiesSymbol now r.1 r.2 maxAgeSec = false).map
      fun r => ⟨r.1.1, r.1.2, r.2⟩)

/-- `group_missing_by_bucket`: the groups in the order of their keys. -/
def groupMissingByBucket (reqs : List WarmupRequirement) :
    List ((String × String) × List WarmupRequirement) :=
  let groups := reqs.foldl (fun (groups : Dict (String × String) (Dict CacheKey WarmupRequirement)) req =>
    let groupKey := (req.tf, barsBucket req.bars)
    let group := (groups.get? groupKey).getD .empty
    match group.get? req.key with
    | none => groups.set groupKey (group.set req.key req)
    | some current =>
      if current.bars < req.bars then groups.set groupKey (group.set req.key req)
      else groups.set groupKey group) .empty
  (groups.rows.insertionSort fun a b =>
    a.1.1 < b.1.1 ∨ (a.1.1 = b.1.1 ∧ a.1.2 ≤ b.1.2)).map
      fun g => (g.1, sortRequirements (g.2.rows.map fun e => e.2))

/-- `_chunk_requirements`. -/
def chunkRequirements (reqs : List WarmupRequirement) : List (List WarmupRequirement) :=
  if reqs.length ≤ max 1 m.maxSymbolsPerRequest then [reqs]
  else reqs.toChunks (max 1 m.maxSymbolsPerRequest)

/-- The upserts of one key. -/
def upsertAll (key : CacheKey) (candles : List RawCandle) : WarmupManager :=
  { m with cache := candles.foldl (fun c candle => c.upsertCandle key candle) m.cache }

/-- `_load_from_snapshots`: one requirement, and what is loaded so far. -/
def loadFromSnapshot (now : ℚ) (maxAgeSec : Option ℚ) (load : WarmupRequirement → List RawCandle)
    (st : WarmupManager × List CacheKey) (req : WarmupRequirement) : WarmupManager × List CacheKey :=
  if st.1.cacheSatisfies now req maxAgeSec then st
  else if load req = [] then st
  else
    let m := st.1.upsertAll req.key (load req)
    if m.cacheSatisfies now req maxAgeSec then (m, req.key :: st.2) else (m, st.2)

/-- `_load_from_snapshots`. -/
def loadFromSnapshots (reqs : List WarmupRequirement) (maxAgeSec : Option ℚ) :
    WarmupManager × List CacheKey :=
  if m.hasSnapshotReader then reqs.foldl (loadFromSnapshot world.now maxAgeSec world.load) (m, [])
  else (m, [])

/-- `_apply_backend_result`. -/
def applyBackendResult (now : ℚ) (reqs : List WarmupRequirement) :
    BackendResult → WarmupManager × List CacheKey
  | .failed => (m, [])
  | .keys loaded => (m, loaded)
  | .candles result => result.rows.foldl (fun st e =>
      let m := st.1.upsertAll e.1 e.2
      if reqs.any fun req => req.key = e.1 ∧ m.cacheSatisfies now req none then (m, e.1 :: st.2)
      else (m, st.2)) (m, [])

/-- `_ensure_batch` and `_send_batch`. -/
def ensureBatch (reqs : List WarmupRequirement) (maxAgeSec : Option ℚ) :
    WarmupManager × List CacheKey :=
  if reqs = [] then (m, [])
  else
    let st := m.applyBackendResult world.now reqs (world.backend reqs)
    (st.1, (reqs.filter fun req => req.key ∈ st.2 ∨ st.1.cacheSatisfies world.now req maxAgeSec).map
      WarmupRequirement.key)

/-- The batches as they complete; the rest is cancelled when the strategies are ready. -/
def ensureBatches (maxAgeSec stopWhenReadyPct : Option ℚ) :
    WarmupManager → List CacheKey → List (List (List WarmupRequirement)) →
      WarmupManager × List CacheKey
  | m, loaded, [] => (m, loaded)
  | m, loaded, group :: groups =>
    let st := group.foldl (fun st chunk =>
      let batch := st.1.ensureBatch world chunk maxAgeSec
      (batch.1, batch.2 ++ st.2)) (m, loaded)
    if st.1.allStrategiesReady world.now stopWhenReadyPct maxAgeSec then st
    else ensureBatches maxAgeSec stopWhenReadyPct st.1 st.2 groups

/-- `request_warmup`: the requirements. -/
def registerRequirements (requirements : Dict CacheKey ℕ) : WarmupManager :=
  let cache := requirements.rows.foldl (fun c r => c.registerDataRequirement r.1 r.2 (some r.2) 0) m.cache
  { m with cache }

/-- `request_warmup`. -/
def requestWarmup (requirements : Dict CacheKey ℕ) (maxAgeSec stopWhenReadyPct : Option ℚ) :
    WarmupManager × List CacheKey :=
  let m := m.registerRequirements requirements
  let missing := m.missingRequirements world.now requirements maxAgeSec
  if missing = [] then (m, [])
  else
    let st := m.loadFromSnapshots world missing maxAgeSec
    if st.1.allStrategiesReady world.now stopWhenReadyPct maxAgeSec then st
    else
      let remaining := missing.filter fun req =>
        req.key ∉ st.2 ∧ st.1.cacheSatisfies world.now req maxAgeSec = false
      if remaining = [] then st
      else
        let chunks := (groupMissingByBucket remaining).flatMap fun g => st.1.chunkRequirements g.2
        ensureBatches world maxAgeSec stopWhenReadyPct st.1 st.2 (world.completed chunks)

/-! ## Synchronised warm-up -/

/-- `_get_required_tfs`. -/
def getRequiredTfs : List String := (m.requirements.keys.map fun key => key.2).dedup.insertionSort (· ≤ ·)

/-- `_classify_symbols`: the symbols that are excluded from now on. -/
def classifySymbols (signals : List ReadySignal) (minWarmupCoveragePct : ℚ) : WarmupManager :=
  { m with excludedSymbols := m.excludedSymbols ++ signals.flatMap fun signal =>
      signal.insufficientSymbols ++ (signal.partialSymbols.rows.filter fun e =>
        e.2 < minWarmupCoveragePct).map fun e => e.1 }

/-- The newest open times of a timeframe, over the symbols that are not excluded. -/
def latestTimestamps (tf : String) : List (String × ℤ) :=
  ((m.cache.getSymbolsWithData tf).filter (· ∉ m.excludedSymbols)).filterMap fun symbol =>
    (m.cache.getLatestTimestamp (symbol, tf)).map fun ts => (symbol, ts)

/-- The symbols too far behind, `none` while all are within the tolerance. -/
def staleSymbols (syncToleranceCandles : ℤ) (tf : String) : Option (List String) :=
  let latest := m.latestTimestamps tf
  let stale := latest.filter fun e =>
    latest.any fun e' => tfMs tf * syncToleranceCandles < e'.2 - e.2
  if stale = [] then none else some (stale.map fun e => e.1)

/-- `_verify_timestamp_sync`; the first argument counts the depths that are left. -/
def verifyTimestampSync (syncToleranceCandles : ℤ) : ℕ → WarmupManager → WarmupManager × Bool
  | 0, m => (m, false)
  | depth + 1, m =>
    match m.getRequiredTfs.findSome? fun tf =>
        (m.staleSymbols syncToleranceCandles tf).map fun stale => (tf, stale) with
    | none => (m, true)
    | some (tf, stale) =>
      let m := if m.hasSnapshotReader then stale.foldl (fun m symbol =>
          m.upsertAll (symbol, tf)
            (world.reload depth ⟨symbol, tf, (m.requirements.get? (symbol, tf)).getD 0⟩)) m
        else m
      verifyTimestampSync syncToleranceCandles depth m

/-- The baseline of a timeframe is the newest open time of its symbols. -/
def setBaseline (tf : String) : WarmupManager :=
  let maxTs := (m.latestTimestamps tf).foldl (fun ts e => max ts e.2) 0
  if 0 < maxTs then { m with
      cache := m.cache.setWarmupBaseline tf maxTs
      warmupBaselineTs := m.warmupBaselineTs.set tf maxTs }
  else m

/-- `run_synced_warmup`; `signals` are the ready signals of the watcher, if there is one. -/
def runSyncedWarmup (signals : Option (Dict String ReadySignal)) (minWarmupCoveragePct : ℚ)
    (syncToleranceCandles : ℤ) (maxStalenessSec : Option ℚ) : WarmupManager :=
  let requiredTfs := m.getRequiredTfs
  let m := match signals with
    | none => m
    | some signals =>
      if requiredTfs = [] ∨ signals.rows.length < requiredTfs.length then m
      else m.classifySymbols (signals.rows.map fun (e : String × ReadySignal) => e.2) minWarmupCoveragePct
  let active := m.requirements.filter fun r => r.1.1 ∉ m.excludedSymbols
  let m := (m.requestWarmup world active maxStalenessSec (some minWarmupCoveragePct)).1
  let m := (verifyTimestampSync world syncToleranceCandles 3 m).1
  requiredTfs.foldl setBaseline m

/-- What any number of synchronised warm-ups, requests and live candles lead to. -/
inductive Reachable : WarmupManager → Prop
  | init (floor : ℕ) (hasSnapshotReader skipGapCheck : Bool) (maxSymbolsPerRequest : ℕ) :
    Reachable (new floor hasSnapshotReader skipGapCheck maxSymbolsPerRequest)
  | collect {m : WarmupManager} (h : Reachable m) (strategies : List WarmupStrategy) :
    Reachable (m.collectRequirements strategies)
  | live {m : WarmupManager} (h : Reachable m) (key : CacheKey) (candle : RawCandle) :
    Reachable (m.upsertAll key [candle])
  | request {m : WarmupManager} (h : Reachable m) (world : WarmupWorld)
    (requirements : Dict CacheKey ℕ) (maxAgeSec stopWhenReadyPct : Option ℚ) :
    Reachable (m.requestWarmup world requirements maxAgeSec stopWhenReadyPct).1
  | synced {m : WarmupManager} (h : Reachable m) (world : WarmupWorld)
    (signals : Option (Dict String ReadySignal)) (minWarmupCoveragePct : ℚ)
    (syncToleranceCandles : ℤ) (maxStalenessSec : Option ℚ) :
    Reachable (m.runSyncedWarmup world signals minWarmupCoveragePct syncToleranceCandles
      maxStalenessSec)

end WarmupManager

namespace WarmupManager

variable {m : WarmupManager}

/-- The candles of a response. -/
lemma applyBackendResult_fst (now : ℚ) (reqs : List WarmupRequirement)
    (result : Dict CacheKey (List RawCandle)) :
    (m.applyBackendResult now reqs (.candles result)).1 =
      result.rows.foldl (fun m e => m.upsertAll e.1 e.2) m := by
  unfold applyBackendResult
  dsimp only
  suffices hfold : ∀ (rows : List (CacheKey × List RawCandle)) (st : WarmupManager × List CacheKey),
      (rows.foldl (fun st e =>
        if reqs.any fun req => req.key = e.1 ∧ (st.1.upsertAll e.1 e.2).cacheSatisfies now req none then
          (st.1.upsertAll e.1 e.2, e.1 :: st.2)
        else (st.1.upsertAll e.1 e.2, st.2)) st).1 =
      rows.foldl (fun m e => m.upsertAll e.1 e.2) st.1 from hfold result.rows (m, [])
  intro rows
  induction rows with
  | nil => exact fun _ => rfl
  | cons e rows ih =>
    intro st
    rw [List.foldl_cons, ih, List.foldl_cons]
    split <;> rfl

end WarmupManager

/-! ## What a call keeps of the cache -/

/-- A property of the cache that upserts keep. -/
structure UpsertInvariant (P : SharedCandleCache → Prop) : Prop where
  upsert : ∀ c key candle, P c → P (c.upsertCandle key candle)

/-- A property of the cache that upserts and requirements keep. -/
structure CacheInvariant (P : SharedCandleCache → Prop) : Prop extends UpsertInvariant P where
  register : ∀ c key w r n, P c → P (c.registerDataRequirement key w r n)

namespace UpsertInvariant

open WarmupManager

variable {P : SharedCandleCache → Prop} {m : WarmupManager} (h : UpsertInvariant P)
include h

lemma upsertAll (hm : P m.cache) (key : CacheKey) (candles : List RawCandle) :
    P (m.upsertAll key candles).cache := by
  change P (candles.foldl (fun c candle => c.upsertCandle key candle) m.cache)
  generalize m.cache = c at hm
  induction candles generalizing c with
  | nil => exact hm
  | cons candle candles ih => exact ih _ (h.upsert _ _ _ hm)

lemma loadFromSnapshots (hm : P m.cache) (world : WarmupWorld) (reqs : List WarmupRequirement)
    (maxAgeSec : Option ℚ) : P (m.loadFromSnapshots world reqs maxAgeSec).1.cache := by
  have hfold : ∀ (reqs : List WarmupRequirement) (st : WarmupManager × List CacheKey), P st.1.cache →
      P (reqs.foldl (loadFromSnapshot world.now maxAgeSec world.load) st).1.cache := by
    intro reqs
    induction reqs with
    | nil => exact fun _ hst => hst
    | cons req reqs ih =>
      intro st hst
      refine ih _ ?_
      unfold loadFromSnapshot
      split
      · exact hst
      split
      · exact hst
      · dsimp only
        split <;> exact h.upsertAll hst _ _
  unfold WarmupManager.loadFromSnapshots
  split
  · exact hfold reqs _ hm
  · exact hm

lemma upsertRows (hm : P m.cache) (rows : List (CacheKey × List RawCandle)) :
    P (rows.foldl (fun m e => m.upsertAll e.1 e.2) m).cache := by
  induction rows generalizing m with
  | nil => exact hm
  | cons e rows ih => exact ih (h.upsertAll hm _ _)

lemma applyBackendResult (hm : P m.cache) (now : ℚ) (reqs : List WarmupRequirement)
    (result : BackendResult) : P (m.applyBackendResult now reqs result).1.cache := by
  cases result with
  | failed => exact hm
  | keys loaded => exact hm
  | candles result =>
    rw [applyBackendResult_fst]
    exact h.upsertRows hm _

end UpsertInvariant

namespace CacheInvariant

open WarmupManager

variable {P : SharedCandleCache → Prop} {m : WarmupManager} (h : CacheInvariant P)
include h

lemma registerRequirements (hm : P m.cache) (requirements : Dict CacheKey ℕ) :
    P (m.registerRequirements requirements).cache := by
  unfold WarmupManager.registerRequirements
  dsimp only
  generalize m.cache = c at hm
  induction requirements.rows generalizing c with
  | nil => exact hm
  | cons r rows ih => exact ih _ (h.register _ _ _ _ _ hm)

lemma ensureBatch (hm : P m.cache) (world : WarmupWorld) (reqs : List WarmupRequirement)
    (maxAgeSec : Option ℚ) : P (m.ensureBatch world reqs maxAgeSec).1.cache := by
  unfold WarmupManager.ensureBatch
  split
  · exact hm
  · exact h.applyBackendResult hm _ _ _

lemma ensureBatches (hm : P m.cache) (world : WarmupWorld) (maxAgeSec stop : Option ℚ)
    (loaded : List CacheKey) (groups : List (List (List WarmupRequirement))) :
    P (ensureBatches world maxAgeSec stop m loaded groups).1.cache := by
  induction groups generalizing m loaded with
  | nil => exact hm
  | cons group groups ih =>
    have hgroup : ∀ (group : List (List WarmupRequirement)) (st : WarmupManager × List CacheKey),
        P st.1.cache → P (group.foldl (fun st chunk =>
          ((st.1.ensureBatch world chunk maxAgeSec).1,
            (st.1.ensureBatch world chunk maxAgeSec).2 ++ st.2)) st).1.cache := by
      intro group
      induction group with
      | nil => exact fun _ hst => hst
      | cons chunk group ihgroup => exact fun st hst => ihgroup _ (h.ensureBatch hst _ _ _)
    unfold WarmupManager.ensureBatches
    dsimp only
    split
    · exact hgroup group (m, loaded) hm
    · exact ih (hgroup group (m, loaded) hm) _

/-- `request_warmup` only registers and upserts. -/
lemma requestWarmup (hm : P m.cache) (world : WarmupWorld) (requirements : Dict CacheKey ℕ)
    (maxAgeSec stop : Option ℚ) :
    P (m.requestWarmup world requirements maxAgeSec stop).1.cache := by
  have hregistered := h.registerRequirements hm requirements
  unfold WarmupManager.requestWarmup
  dsimp only
  split
  · exact hregistered
  have hloaded := h.loadFromSnapshots hregistered world
    ((m.registerRequirements requirements).missingRequirements world.now requirements maxAgeSec)
    maxAgeSec
  split
  · exact hloaded
  split
  · exact hloaded
  · exact h.ensureBatches hloaded _ _ _ _ _

lemma verifyTimestampSync (hm : P m.cache) (world : WarmupWorld) (tolerance : ℤ) (depth : ℕ) :
    P (verifyTimestampSync world tolerance depth m).1.cache := by
  induction depth generalizing m with
  | zero => exact hm
  | succ depth ih =>
    have hstale : ∀ (tf : String) (stale : List String) (m : WarmupManager), P m.cache →
        P (stale.foldl (fun m symbol => m.upsertAll (symbol, tf)
          (world.reload depth ⟨symbol, tf, (m.requirements.get? (symbol, tf)).getD 0⟩)) m).cache := by
      intro tf stale
      induction stale with
      | nil => exact fun _ hm => hm
      | cons symbol stale ihstale => exact fun m hm => ihstale _ (h.upsertAll hm _ _)
    unfold WarmupManager.verifyTimestampSync
    split
    · exact hm
    · refine ih ?_
      split
      · exact hstale _ _ m hm
      · exact hm

/-- A property that the baseline does not touch is kept by a synchronised warm-up. -/
lemma runSyncedWarmup (hbaseline : ∀ c tf ts, P c → P (c.setWarmupBaseline tf ts)) (hm : P m.cache)
    (world : WarmupWorld) (signals : Option (Dict String ReadySignal)) (minCoverage : ℚ)
    (tolerance : ℤ) (maxStalenessSec : Option ℚ) :
    P (m.runSyncedWarmup world signals minCoverage tolerance maxStalenessSec).cache := by
  have hset : ∀ (tfs : List String) (m : WarmupManager), P m.cache → P (tfs.foldl setBaseline m).cache := by
    intro tfs
    induction tfs with
    | nil => exact fun _ hm => hm
    | cons tf tfs ih =>
      intro m hm
      refine ih _ ?_
      unfold setBaseline
      dsimp only
      split
      · exact hbaseline _ _ _ hm
      · exact hm
  unfold WarmupManager.runSyncedWarmup
  dsimp only
  refine hset _ _ (h.verifyTimestampSync (h.requestWarmup ?_ _ _ _ _) _ _ _)
  split
  · exact hm
  · split
    · exact hm
    · exact hm

/-- A property that holds of a new cache, and that the baseline does not touch, holds of every
reachable one. -/
theorem reachable (hinit : ∀ floor, P { dataMaxCandlesFloor := floor })
    (hbaseline : ∀ c tf ts, P c → P (c.setWarmupBaseline tf ts)) (hm : m.Reachable) : P m.cache := by
  induction hm with
  | init floor => exact hinit floor
  | @collect m _ strategies ih =>
    unfold collectRequirements
    dsimp only
    generalize m.cache = c at ih
    generalize (strategies.flatMap _) = all
    induction all generalizing c with
    | nil => exact ih
    | cons e all ihall => exact ihall _ (h.register _ _ _ _ _ ih)
  | live _ key candle ih => exact h.upsertAll ih _ _
  | request _ world requirements maxAgeSec stop ih => exact h.requestWarmup ih _ _ _ _
  | synced _ world signals minCoverage tolerance maxStalenessSec ih =>
    exact h.runSyncedWarmup hbaseline ih _ _ _ _ _

end CacheInvariant

end PaperTrade.Runner
