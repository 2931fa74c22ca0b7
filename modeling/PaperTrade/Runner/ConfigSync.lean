import PaperTrade.Runtime.JsonSpelling
import PaperTrade.Runtime.Table

/-!
# The configurations in Redis

`sync_config_to_redis` writes the alphas of a configuration file, each with its channels and time frames, and
prunes the keys of all others; the runners read them with `read_alpha_configs_from_redis` and compare them with
the alphas that they own. Whatever Redis held before, they find the alphas of the file (`sync_exact`).
-/

namespace PaperTrade.Runner.ConfigSync

open PaperTrade.Runtime

/-! ## The file -/

/-- `AlphaConfig` of the configuration file. -/
structure AlphaConfig where
  alphaId : String
  strategy : String
  version : String := "1"
  enabled : Bool := true
  params : Entries := []

/-- `cls.get_required_channels(params)` of a registered strategy; `none` is an unknown strategy or an
exception. -/
abbrev Registry : Type := String → Entries → Option (List String)

/-- `\d+m|\d+h|\d+d`, searched for in what is left of a channel; `digits` holds the digits in front of it. -/
def searchTf : List Char → List Char → Option (List Char)
  | [], _ => none
  | c :: rest, digits =>
    if isDigit c then searchTf rest (digits ++ [c])
    else if digits ≠ [] ∧ (c = 'm' ∨ c = 'h' ∨ c = 'd') then some (digits ++ [c])
    else searchTf rest []

/-- `_derive_tf_set`. -/
def deriveTfSet (channels : List String) : List String :=
  ((channels.filterMap fun ch => (searchTf ch.toList []).map String.ofList).dedup).insertionSort (· ≤ ·)

/-- What is written of an alpha. -/
def blob (a : AlphaConfig) (channels : List String) : Entries :=
  [("alpha_id", .str a.alphaId), ("strategy", .str a.strategy), ("version", .str a.version),
   ("enabled", .bool a.enabled), ("params", .obj a.params),
   ("required_channels", .arr (channels.map .str)), ("tf_set", .arr ((deriveTfSet channels).map .str))]

/-! ## `sync_config_to_redis` -/

/-- Strings in Redis. -/
abbrev Redis : Type := Dict String (List Char)

/-- `ALPHA_CONFIG_PREFIX` with an id. -/
def configKey (alphaId : String) : String := "runner:alpha:config:" ++ alphaId

/-- `scan_iter(match=f"{ALPHA_CONFIG_PREFIX}*")`: keys in any order, some of them perhaps more than once. -/
def Scans (redis : Redis) (keys : List String) : Prop :=
  ∀ k, k ∈ keys ↔ redis.contains k = true ∧ ∃ alphaId, k = configKey alphaId

/-- The loop over the alphas: Redis, the active keys, and how many were written. -/
structure Progress where
  redis : Redis
  active : List String := []
  written : ℕ := 0

/-- One alpha; `refused` are the deletions that raise, which is logged. -/
def syncAlpha (registry : Registry) (refused : String → Bool) (p : Progress) (a : AlphaConfig) : Progress :=
  let key := configKey a.alphaId
  if !a.enabled then
    if refused key then p else { p with redis := p.redis.erase key }
  else match registry a.strategy a.params with
    | none => p
    | some channels =>
      { redis := p.redis.set key (Json.spell Json.spaced (.obj (blob a channels)))
        active := if key ∈ p.active then p.active else p.active ++ [key]
        written := p.written + 1 }

/-- The pruning of the scanned keys; `none` is a deletion that raises. -/
def prune (refused : String → Bool) (active : List String) (redis : Redis) : List String → Option Redis
  | [] => some redis
  | k :: keys =>
    if k ∈ active then prune refused active redis keys
    else if refused k then none
    else prune refused active (redis.erase k) keys

def syncAlphas (registry : Registry) (refused : String → Bool) (redis : Redis) (alphas : List AlphaConfig) :
    Progress :=
  alphas.foldl (syncAlpha registry refused) ⟨redis, [], 0⟩

/-- `sync_config_to_redis` with `prune`; `scan` is the scan of Redis after the loop. -/
def syncConfigToRedis (registry : Registry) (refused : String → Bool) (scan : Redis → List String)
    (redis : Redis) (alphas : List AlphaConfig) : Option (Redis × ℕ) :=
  let p := syncAlphas registry refused redis alphas
  (prune refused p.active p.redis (scan p.redis)).map fun redis => (redis, p.written)

/-! ## The runner -/

/-- `bool(blob.get("enabled", True))`. -/
def enabled (config : Entries) : Bool := ((config.get? "enabled").getD (.bool true)).truthy

/-- One key of `read_alpha_configs_from_redis`; what is no JSON object is skipped. -/
def readConfig (redis : Redis) (key : String) : Option Entries :=
  match (redis.get? key).bind Json.parse with
  | some (.obj config) => if enabled config then some config else none
  | _ => none

/-- `read_alpha_configs_from_redis`. -/
def readAlphaConfigsFromRedis (redis : Redis) (keys : List String) : List Entries :=
  keys.filterMap (readConfig redis)

/-- One id of `find_newly_disabled`; `none` is an exception. -/
def isDisabled (redis : Redis) (alphaId : String) : Option Bool :=
  match redis.get? (configKey alphaId) with
  | none => some true
  | some raw => match Json.parse raw with
    | some (.obj config) => some (!enabled config)
    | _ => none

/-- `find_newly_disabled`. -/
def findNewlyDisabled (redis : Redis) : List String → Option (List String)
  | [] => some []
  | alphaId :: owned => do
    let disabled ← isDisabled redis alphaId
    let rest ← findNewlyDisabled redis owned
    pure (if disabled then alphaId :: rest else rest)

/-- The id of a configuration. -/
def idOf (config : Entries) : Option String :=
  match config.get? "alpha_id" with
  | some (.str alphaId) => some alphaId
  | _ => none

/-- `find_newly_enabled`; `leased` tells whether there is a lease, and `allowed` the ids of the runner. -/
def findNewlyEnabled (redis : Redis) (keys : List String) (owned : List String)
    (allowed : Option (List String)) (leased : String → Bool) : List Entries :=
  (readAlphaConfigsFromRedis redis keys).filter fun config =>
    (idOf config).any fun alphaId =>
      (allowed.all fun ids => alphaId ∈ ids) && !decide (alphaId ∈ owned) && !leased alphaId

/-! ## What a file says -/

section Effects

variable (registry : Registry) (refused : String → Bool)

/-- What an item of the file does with the key of its alpha: nothing, or it leaves this there. -/
def effect (a : AlphaConfig) : Option (Option Entries) :=
  if !a.enabled then
    if refused (configKey a.alphaId) then none else some none
  else (registry a.strategy a.params).map fun channels => some (blob a channels)

/-- The last item of an alpha that does something decides. -/
def lastEffect (alphas : List AlphaConfig) (alphaId : String) : Option (Option Entries) :=
  ((alphas.filter fun a => a.alphaId = alphaId).filterMap (effect registry refused)).getLast?

/-- The configuration that a file gives an alpha. -/
def configOf (alphas : List AlphaConfig) (alphaId : String) : Option Entries :=
  (lastEffect registry refused alphas alphaId).join

/-- What a synchronisation leaves, whatever was there. -/
structure Synced (alphas : List AlphaConfig) (redis redis' : Redis) : Prop where
  /-- The runners read the configurations of the file. -/
  read : ∀ keys, Scans redis' keys → ∀ config, config ∈ readAlphaConfigsFromRedis redis' keys ↔
    ∃ alphaId, configOf registry refused alphas alphaId = some config
  /-- They give up the alphas that have none. -/
  disabled : ∀ owned, findNewlyDisabled redis' owned =
    some (owned.filter fun alphaId => (configOf registry refused alphas alphaId).isNone)
  /-- They claim those of the others that are free and allowed. -/
  newlyEnabled : ∀ keys, Scans redis' keys → ∀ owned allowed leased config,
    config ∈ findNewlyEnabled redis' keys owned allowed leased ↔
      ∃ alphaId, configOf registry refused alphas alphaId = some config ∧ alphaId ∉ owned ∧
        leased alphaId = false ∧ ∀ ids, allowed = some ids → alphaId ∈ ids
  /-- Every other key is as it was. -/
  others : ∀ k, (∀ alphaId, k ≠ configKey alphaId) → redis'.get? k = redis.get? k

end Effects

/-! ## The loop -/

section Loop

variable {registry : Registry} {refused : String → Bool} {alphas : List AlphaConfig} {redis : Redis}

lemma configKey_inj {a b : String} : configKey a = configKey b ↔ a = b := String.append_right_inj _

/-- The text of a configuration. -/
def spelled (config : Entries) : List Char := Json.spell Json.spaced (.obj config)

lemma get?_erase {κ α : Type} [DecidableEq κ] (d : Dict κ α) (k k' : κ) :
    Dict.get? (d.erase k) k' = if k' = k then none else d.get? k' := by
  unfold Dict.get?
  rw [Table.find?_erase]
  split <;> rfl

/-- Redis and the active keys, after some of the items. -/
structure Progress.After (registry : Registry) (refused : String → Bool) (redis : Redis)
    (alphas : List AlphaConfig) (p : Progress) : Prop where
  get? : ∀ alphaId, p.redis.get? (configKey alphaId) =
    match lastEffect registry refused alphas alphaId with
    | some config => config.map spelled
    | none => redis.get? (configKey alphaId)
  others : ∀ k, (∀ alphaId, k ≠ configKey alphaId) → p.redis.get? k = redis.get? k
  active : ∀ alphaId, configKey alphaId ∈ p.active ↔
    ∃ a ∈ alphas, a.alphaId = alphaId ∧ ∃ config, effect registry refused a = some (some config)

lemma lastEffect_append (alphas : List AlphaConfig) (a : AlphaConfig) (alphaId : String) :
    lastEffect registry refused (alphas ++ [a]) alphaId =
      if a.alphaId = alphaId then (effect registry refused a).or (lastEffect registry refused alphas alphaId)
      else lastEffect registry refused alphas alphaId := by
  unfold lastEffect
  rw [List.filter_append, List.filterMap_append]
  by_cases hid : a.alphaId = alphaId
  · rw [if_pos hid]
    cases heffect : effect registry refused a <;> simp [hid, heffect]
  · simp [hid]

/-- One item, by its effect. -/
lemma syncAlpha_eq (p : Progress) (a : AlphaConfig) : syncAlpha registry refused p a =
    match effect registry refused a with
    | none => p
    | some none => { p with redis := p.redis.erase (configKey a.alphaId) }
    | some (some config) =>
      { redis := p.redis.set (configKey a.alphaId) (spelled config)
        active := if configKey a.alphaId ∈ p.active then p.active else p.active ++ [configKey a.alphaId]
        written := p.written + 1 } := by
  unfold syncAlpha effect
  cases a.enabled with
  | false =>
    cases hrefused : refused (configKey a.alphaId) <;> simp [hrefused]
  | true =>
    cases hchannels : registry a.strategy a.params <;> simp [hchannels, spelled]

lemma syncAlphas_after (registry : Registry) (refused : String → Bool) (redis : Redis)
    (alphas : List AlphaConfig) :
    (syncAlphas registry refused redis alphas).After registry refused redis alphas := by
  induction alphas using List.reverseRecOn with
  | nil => exact ⟨fun _ => rfl, fun _ _ => rfl, fun _ => by simp [syncAlphas]⟩
  | append_singleton alphas a ih =>
    have hrun : syncAlphas registry refused redis (alphas ++ [a]) =
        syncAlpha registry refused (syncAlphas registry refused redis alphas) a := by
      rw [syncAlphas, List.foldl_append]
      rfl
    rw [hrun, syncAlpha_eq]
    set p := syncAlphas registry refused redis alphas
    have hactive : ∀ alphaId, (∃ b ∈ alphas ++ [a], b.alphaId = alphaId ∧
        ∃ config, effect registry refused b = some (some config)) ↔ configKey alphaId ∈ p.active ∨
          (a.alphaId = alphaId ∧ ∃ config, effect registry refused a = some (some config)) := by
      intro alphaId
      rw [ih.active]
      simp only [List.mem_append, List.mem_singleton, or_and_right, exists_or, exists_eq_left]
    cases heffect : effect registry refused a with
    | none =>
      refine ⟨fun alphaId => ?_, ih.others, fun alphaId => ?_⟩
      · rw [lastEffect_append, heffect, Option.none_or, ite_self]
        exact ih.get? alphaId
      · rw [hactive, heffect]
        simp
    | some written =>
      have hget : ∀ alphaId, lastEffect registry refused (alphas ++ [a]) alphaId =
          if a.alphaId = alphaId then some written else lastEffect registry refused alphas alphaId := by
        intro alphaId
        rw [lastEffect_append, heffect, Option.some_or]
      cases written with
      | none =>
        refine ⟨fun alphaId => ?_, fun k hk => ?_, fun alphaId => ?_⟩
        · dsimp only
          rw [get?_erase, hget]
          by_cases hid : alphaId = a.alphaId
          · rw [if_pos (by rw [hid]), if_pos hid.symm]
            rfl
          · rw [if_neg fun h => hid (configKey_inj.mp h), if_neg (Ne.symm hid)]
            exact ih.get? alphaId
        · dsimp only
          rw [get?_erase, if_neg (hk a.alphaId)]
          exact ih.others k hk
        · rw [hactive, heffect]
          simp
      | some config =>
        refine ⟨fun alphaId => ?_, fun k hk => ?_, fun alphaId => ?_⟩
        · dsimp only
          rw [Dict.get?_set, hget]
          by_cases hid : alphaId = a.alphaId
          · rw [if_pos (by rw [hid]), if_pos hid.symm]
            rfl
          · rw [if_neg fun h => hid (configKey_inj.mp h), if_neg (Ne.symm hid)]
            exact ih.get? alphaId
        · dsimp only
          rw [Dict.get?_set, if_neg (hk a.alphaId)]
          exact ih.others k hk
        · rw [hactive, heffect]
          dsimp only
          split
          · rename_i hmem
            refine ⟨.inl, ?_⟩
            rintro (h | ⟨rfl, -⟩)
            · exact h
            · exact hmem
          · rw [List.mem_append, List.mem_singleton, configKey_inj]
            refine or_congr_right ⟨fun h => ⟨h.symm, config, rfl⟩, fun h => h.1.symm⟩

/-! ## The pruning -/

lemma prune_get? {active : List String} {redis' : Redis} (keys : List String)
    (h : prune refused active redis keys = some redis') (k : String) :
    redis'.get? k = if k ∈ keys ∧ k ∉ active then none else redis.get? k := by
  induction keys generalizing redis with
  | nil =>
    cases h
    simp
  | cons key keys ih =>
    unfold prune at h
    split at h
    · rename_i hactive
      rw [ih h]
      by_cases hk : k = key
      · subst hk
        simp [hactive]
      · simp [hk]
    split at h
    · cases h
    · rename_i hactive hrefused
      rw [ih h, get?_erase]
      by_cases hk : k = key
      · subst hk
        simp [hactive]
      · simp [hk]

/-- Redis holds the configurations of the file under the keys of alphas, and no others. -/
lemma get?_syncConfig {scan : Redis → List String} (hscan : ∀ r, Scans r (scan r)) {redis' : Redis} {n : ℕ}
    (h : syncConfigToRedis registry refused scan redis alphas = some (redis', n)) :
    (∀ alphaId, redis'.get? (configKey alphaId) =
      (configOf registry refused alphas alphaId).map spelled) ∧
    ∀ k, (∀ alphaId, k ≠ configKey alphaId) → redis'.get? k = redis.get? k := by
  have hafter := syncAlphas_after registry refused redis alphas
  unfold syncConfigToRedis at h
  obtain ⟨pruned, hpruned, heq⟩ := Option.map_eq_some_iff.mp h
  obtain rfl : pruned = redis' := (Prod.mk.inj heq).1
  set p := syncAlphas registry refused redis alphas
  have hget := prune_get? _ hpruned
  refine ⟨fun alphaId => ?_, fun k hk => ?_⟩
  · rw [hget, hafter.get?]
    by_cases hactive : configKey alphaId ∈ p.active
    · -- an item has written the key, so the file decides what it holds
      rw [if_neg (fun h => h.2 hactive)]
      obtain ⟨a, ha, hid, config, heffect⟩ := (hafter.active alphaId).mp hactive
      have hsome : ∃ e, lastEffect registry refused alphas alphaId = some e := by
        rw [← Option.isSome_iff_exists, lastEffect, List.getLast?_isSome]
        refine List.ne_nil_of_mem (List.mem_filterMap.mpr ⟨a, List.mem_filter.mpr ⟨ha, ?_⟩, heffect⟩)
        simpa using hid
      obtain ⟨e, he⟩ := hsome
      rw [configOf, he]
      rfl
    · have hnone : configOf registry refused alphas alphaId = none := by
        unfold configOf
        cases he : lastEffect registry refused alphas alphaId with
        | none => rfl
        | some e =>
          cases e with
          | none => rfl
          | some config =>
            obtain ⟨a, ha, heffect⟩ := List.mem_filterMap.mp (List.mem_of_getLast? he)
            obtain ⟨ha, hid⟩ := List.mem_filter.mp ha
            exact absurd ((hafter.active alphaId).mpr ⟨a, ha, by simpa using hid, config, heffect⟩) hactive
      rw [hnone, ← hafter.get?]
      by_cases hpresent : p.redis.contains (configKey alphaId) = true
      · exact if_pos ⟨(hscan p.redis _).mpr ⟨hpresent, alphaId, rfl⟩, hactive⟩
      · have hget? : p.redis.get? (configKey alphaId) = none := by
          rw [Dict.get?_none_iff]
          exact fun v hv => hpresent ((Table.contains_iff _ _).mpr ⟨_, hv, rfl⟩)
        rw [hget?, ite_self]
        rfl
  · have hnot : ¬ (k ∈ scan p.redis ∧ k ∉ p.active) := by
      rintro ⟨hk', -⟩
      obtain ⟨-, alphaId, heq⟩ := (hscan p.redis k).mp hk'
      exact hk alphaId heq
    rw [hget, if_neg hnot]
    exact hafter.others k hk

/-! ## The runners -/

/-- A configuration is that of an enabled item of its alpha. -/
lemma configOf_some {alphaId : String} {config : Entries}
    (h : configOf registry refused alphas alphaId = some config) : ∃ a ∈ alphas, ∃ channels,
      a.alphaId = alphaId ∧ a.enabled = true ∧ config = blob a channels := by
  have hlast : lastEffect registry refused alphas alphaId = some (some config) := by
    unfold configOf at h
    exact Option.join_eq_some_iff.mp h
  obtain ⟨a, ha, heffect⟩ := List.mem_filterMap.mp (List.mem_of_getLast? hlast)
  obtain ⟨ha, hid⟩ := List.mem_filter.mp ha
  unfold effect at heffect
  cases henabled : a.enabled with
  | false =>
    rw [henabled] at heffect
    cases hrefused : refused (configKey a.alphaId) <;> simp [hrefused] at heffect
  | true =>
    rw [henabled] at heffect
    obtain ⟨channels, -, heq⟩ := Option.map_eq_some_iff.mp heffect
    exact ⟨a, ha, channels, by simpa using hid, henabled, (Option.some.inj heq).symm⟩

lemma spellableItems_strings (l : List String) : Json.SpellableItems (l.map .str) := by
  induction l with
  | nil => trivial
  | cons s l ih => exact ⟨trivial, ih⟩

lemma spellable_blob {a : AlphaConfig} (h : Json.Spellable (.obj a.params)) (channels : List String) :
    Json.Spellable (.obj (blob a channels)) := by
  refine ⟨by simp [blob], trivial, trivial, trivial, trivial, h, ?_, ?_, trivial⟩
  · exact spellableItems_strings channels
  · exact spellableItems_strings _

variable {redis' : Redis}

/-- A key that holds a configuration of the file is read as that configuration. -/
lemma readConfig_eq (hparams : ∀ a ∈ alphas, Json.Spellable (.obj a.params)) {alphaId : String}
    (h : redis'.get? (configKey alphaId) = (configOf registry refused alphas alphaId).map spelled) :
    readConfig redis' (configKey alphaId) = configOf registry refused alphas alphaId := by
  unfold readConfig
  rw [h]
  cases hconfig : configOf registry refused alphas alphaId with
  | none => rfl
  | some config =>
    obtain ⟨a, ha, channels, -, henabled, rfl⟩ := configOf_some hconfig
    have hparse : Json.parse (spelled (blob a channels)) = some (.obj (blob a channels)) :=
      Json.parse_spell Json.blank_spaced (spellable_blob (hparams a ha) channels)
    have htrue : enabled (blob a channels) = true := by
      show (Json.bool a.enabled).truthy = true
      rw [henabled]
      rfl
    rw [Option.map_some, Option.bind_some, hparse]
    show (if enabled (blob a channels) then some (blob a channels) else none) = _
    rw [if_pos htrue]

lemma isDisabled_eq (hparams : ∀ a ∈ alphas, Json.Spellable (.obj a.params)) {alphaId : String}
    (h : redis'.get? (configKey alphaId) = (configOf registry refused alphas alphaId).map spelled) :
    isDisabled redis' alphaId = some (configOf registry refused alphas alphaId).isNone := by
  unfold isDisabled
  rw [h]
  cases hconfig : configOf registry refused alphas alphaId with
  | none => rfl
  | some config =>
    obtain ⟨a, ha, channels, -, henabled, rfl⟩ := configOf_some hconfig
    have hparse : Json.parse (spelled (blob a channels)) = some (.obj (blob a channels)) :=
      Json.parse_spell Json.blank_spaced (spellable_blob (hparams a ha) channels)
    show (match Json.parse (spelled (blob a channels)) with
      | some (.obj config) => some (!enabled config) | _ => none) = _
    rw [hparse]
    show some (!(Json.bool a.enabled).truthy) = _
    rw [henabled]
    rfl

/-- **The file decides.** Whatever Redis held, after a synchronisation that prunes, the runners read the
configurations of the file in any scan, give up the alphas without one, and claim those of the others that
are free and that they may run. -/
theorem sync_exact (registry : Registry) (refused : String → Bool) (scan : Redis → List String)
    (redis redis' : Redis) (alphas : List AlphaConfig) (n : ℕ) (hscan : ∀ r, Scans r (scan r))
    (hparams : ∀ a ∈ alphas, Json.Spellable (.obj a.params))
    (h : syncConfigToRedis registry refused scan redis alphas = some (redis', n)) :
    Synced registry refused alphas redis redis' := by
  obtain ⟨hget, hothers⟩ := get?_syncConfig hscan h
  have hread : ∀ keys, Scans redis' keys → ∀ config, config ∈ readAlphaConfigsFromRedis redis' keys ↔
      ∃ alphaId, configOf registry refused alphas alphaId = some config := by
    intro keys hkeys config
    unfold readAlphaConfigsFromRedis
    rw [List.mem_filterMap]
    constructor
    · rintro ⟨k, hk, hconfig⟩
      obtain ⟨-, alphaId, rfl⟩ := (hkeys k).mp hk
      rw [readConfig_eq hparams (hget alphaId)] at hconfig
      exact ⟨alphaId, hconfig⟩
    · rintro ⟨alphaId, hconfig⟩
      refine ⟨configKey alphaId, (hkeys _).mpr ⟨?_, alphaId, rfl⟩, ?_⟩
      · have hsome := hget alphaId
        rw [hconfig, Option.map_some, Dict.get?_some_iff] at hsome
        exact (Table.contains_iff _ _).mpr ⟨_, hsome, rfl⟩
      · rw [readConfig_eq hparams (hget alphaId), hconfig]
  refine ⟨hread, fun owned => ?_, fun keys hkeys owned allowed leased config => ?_, hothers⟩
  · induction owned with
    | nil => rfl
    | cons alphaId owned ih =>
      rw [findNewlyDisabled, isDisabled_eq hparams (hget alphaId), ih, List.filter_cons]
      rfl
  · unfold findNewlyEnabled
    rw [List.mem_filter, hread keys hkeys]
    have hid : ∀ alphaId, configOf registry refused alphas alphaId = some config →
        idOf config = some alphaId := by
      intro alphaId hconfig
      obtain ⟨a, -, channels, rfl, -, rfl⟩ := configOf_some hconfig
      rfl
    constructor
    · rintro ⟨⟨alphaId, hconfig⟩, hfree⟩
      rw [hid alphaId hconfig] at hfree
      refine ⟨alphaId, hconfig, ?_⟩
      cases allowed <;> simp_all
    · rintro ⟨alphaId, hconfig, howned, hleased, hallowed⟩
      refine ⟨⟨alphaId, hconfig⟩, ?_⟩
      rw [hid alphaId hconfig]
      cases allowed <;> simp_all

/-! ## A file -/

/-- A scan that returns every key once. -/
def scanOnce (redis : Redis) : List String :=
  redis.keys.filter fun k => "runner:alpha:config:".toList.isPrefixOf k.toList

lemma isPrefixOf_iff (p k : String) : p.toList.isPrefixOf k.toList = true ↔ ∃ t, k = p ++ t := by
  rw [List.isPrefixOf_iff_prefix]
  constructor
  · rintro ⟨t, ht⟩
    refine ⟨String.ofList t, String.toList_inj.mp ?_⟩
    rw [String.toList_append, String.toList_ofList, ht]
  · rintro ⟨t, rfl⟩
    rw [String.toList_append]
    exact List.prefix_append _ _

lemma scans_scanOnce (redis : Redis) : Scans redis (scanOnce redis) := by
  intro k
  unfold scanOnce Dict.keys configKey
  rw [List.mem_filter, isPrefixOf_iff, Table.contains_iff, List.mem_map]

/-- Redis has an old configuration of an alpha whose strategy is now unknown. -/
def oldRedis : Redis := ⟨[(configKey "c", []), ("other", [])], by decide⟩

def threeAlphas : List AlphaConfig :=
  [{ alphaId := "a", strategy := "momentum" }, { alphaId := "b", strategy := "momentum", enabled := false },
   { alphaId := "c", strategy := "gone" }]

def oneStrategy : Registry := fun strategy _ => if strategy = "momentum" then some ["candles:1h"] else none

lemma spellable_threeAlphas : ∀ a ∈ threeAlphas, Json.Spellable (.obj a.params) := by
  have hempty : Json.Spellable (.obj []) := ⟨List.nodup_nil, trivial⟩
  intro a ha
  simp only [threeAlphas, List.mem_cons, List.not_mem_nil, or_false] at ha
  rcases ha with rfl | rfl | rfl
  · exact hempty
  · exact hempty
  · exact hempty

lemma isSome_syncThree :
    (syncConfigToRedis oneStrategy (fun _ => false) scanOnce oldRedis threeAlphas).isSome = true := by
  decide +kernel

lemma owned_configOf : ["a", "b", "c"].filter (fun alphaId =>
    (configOf oneStrategy (fun _ => false) threeAlphas alphaId).isNone) = ["b", "c"] := by
  decide +kernel

/-- A runner that owns all three gives up the disabled one and the unknown one. -/
theorem sync_exact_three : ∃ redis' n,
    syncConfigToRedis oneStrategy (fun _ => false) scanOnce oldRedis threeAlphas = some (redis', n) ∧
      findNewlyDisabled redis' ["a", "b", "c"] = some ["b", "c"] := by
  obtain ⟨r, h⟩ := Option.isSome_iff_exists.mp isSome_syncThree
  have hsynced := sync_exact oneStrategy (fun _ => false) scanOnce oldRedis r.1 threeAlphas r.2
    scans_scanOnce spellable_threeAlphas h
  exact ⟨r.1, r.2, h, (hsynced.disabled _).trans (congrArg some owned_configOf)⟩

end Loop

end PaperTrade.Runner.ConfigSync
