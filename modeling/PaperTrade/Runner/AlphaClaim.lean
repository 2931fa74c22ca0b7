import Mathlib.Data.List.Sort
import Mathlib.Data.List.TakeWhile
import PaperTrade.Runner.Lease
import PaperTrade.Runtime.Table

/-!
# Claiming groups of alphas

`claim_alpha_group` takes the leases of a group one after the other and gives back what it has when one
of them belongs to another runner. What it gives back are the leases that it has taken and those that it
has found its own, so a claim that fails leaves the leases as they were exactly when it has found none of
its own (`claimAlphaGroup_law_iff`).

The commands run against one store without a pause. Of a configuration only `alpha_id` and `tf_set` are
read.
-/

namespace PaperTrade.Runner

open PaperTrade.Runtime LeaseManager

/-! ## The groups -/

/-- A configuration in Redis. -/
structure AlphaConfig where
  alphaId : String
  tfSet : Option (List String) := none
deriving DecidableEq

namespace AlphaConfig

/-- `sorted(cfg.get("tf_set", ["1m"]))`. -/
def sortedTfSet (cfg : AlphaConfig) : List String := (cfg.tfSet.getD ["1m"]).insertionSort (· ≤ ·)

/-- `tf_key`. -/
def tfKey (cfg : AlphaConfig) : String := ",".intercalate cfg.sortedTfSet

end AlphaConfig

structure AlphaGroup where
  tfKey : String
  tfSet : List String
  alphaIds : List String
  configs : List AlphaConfig

/-- `[cfgs[i : i + n] for i in range(0, len(cfgs), n)]`. -/
def chunks {α : Type} (n : ℕ) (cfgs : List α) : List (List α) :=
  (List.range ((cfgs.length + n - 1) / n)).map fun i => (cfgs.drop (i * n)).take n

/-- `by_tf`. -/
def byTf (configs : List AlphaConfig) : Dict String (List AlphaConfig) :=
  configs.foldl (fun by_tf cfg => by_tf.set cfg.tfKey ((by_tf.get? cfg.tfKey).getD [] ++ [cfg])) .empty

/-- `group_alphas_by_tf_set`. -/
def groupAlphasByTfSet (configs : List AlphaConfig) (maxAlphasPerRunner : ℕ) : List AlphaGroup :=
  let groups := (byTf configs).rows.flatMap fun (tfKey, cfgs) =>
    (chunks maxAlphasPerRunner cfgs).map fun chunk => {
      tfKey
      tfSet := ((cfgs.head?.map AlphaConfig.sortedTfSet).getD [])
      alphaIds := chunk.map AlphaConfig.alphaId
      configs := chunk }
  groups.insertionSort fun a b => b.alphaIds.length ≤ a.alphaIds.length

/-! ## The claim -/

/-- What Redis refuses. -/
inductive RedisError
  /-- a time to live of zero -/
  | invalidExpire
deriving DecidableEq

section Claim

variable (l : LeaseManager) (scripted : String → Bool)

/-- `_release_lease`: by the script where Redis runs it, and else by a `GET` and a `DEL`. -/
def releaseLease (keys : LeaseKeys) (alphaId : String) : LeaseKeys :=
  if scripted alphaId then (l.release keys alphaId).2
  else if holder keys alphaId = some l.runnerId then
    { keys with entry := Function.update keys.entry (key alphaId) none }
  else keys

/-- The loop of `claim_alpha_group`. -/
def claimFrom (acquired : List String) : List String → LeaseKeys → Except RedisError (Bool × LeaseKeys)
  | [], keys => .ok (true, keys)
  | alphaId :: alphaIds, keys =>
    if l.ttlSec = 0 then .error .invalidExpire
    else
      match l.acquire keys alphaId with
      | (true, keys) => claimFrom (acquired ++ [alphaId]) alphaIds keys
      | (false, keys) =>
        if holder keys alphaId = some l.runnerId then
          claimFrom (acquired ++ [alphaId]) alphaIds (l.renew keys alphaId).2
        else .ok (false, acquired.foldl (releaseLease l scripted) keys)

/-- `claim_alpha_group`. -/
def claimAlphaGroup (group : AlphaGroup) (keys : LeaseKeys) : Except RedisError (Bool × LeaseKeys) :=
  claimFrom l scripted [] group.alphaIds keys

/-- The group, cut to the slots that are left. -/
def AlphaGroup.cut (group : AlphaGroup) (slots : ℕ) : AlphaGroup :=
  if slots < group.configs.length then
    { group with alphaIds := group.alphaIds.take slots, configs := group.configs.take slots }
  else group

/-- The loop of `claim_alpha_groups`. -/
def claimGroups (remaining : ℕ) (claimed : List AlphaConfig) :
    List AlphaGroup → LeaseKeys → Except RedisError (List AlphaConfig × LeaseKeys)
  | [], keys => .ok (claimed, keys)
  | group :: groups, keys =>
    let slots := remaining - claimed.length
    if slots = 0 then .ok (claimed, keys)
    else do
      let (ok, keys) ← claimAlphaGroup l scripted (group.cut slots) keys
      claimGroups remaining (if ok then claimed ++ (group.cut slots).configs else claimed) groups keys

/-- `claim_alpha_groups`. -/
def claimAlphaGroups (configs : List AlphaConfig) (maxAlphasPerRunner alreadyOwned : ℕ) (keys : LeaseKeys) :
    Except RedisError (List AlphaConfig × LeaseKeys) :=
  let remaining := maxAlphasPerRunner - alreadyOwned
  if remaining = 0 then .ok ([], keys)
  else claimGroups l scripted remaining [] (groupAlphasByTfSet configs maxAlphasPerRunner) keys

end Claim

/-! ## Releases -/

section Release

variable {l : LeaseManager} {scripted : String → Bool} {keys : LeaseKeys}

/-- With and without the script a lease of the runner is given back, and nothing else. -/
lemma holder_releaseLease (a a' : String) :
    holder (releaseLease l scripted keys a) a' =
      if a' = a ∧ holder keys a = some l.runnerId then none else holder keys a' := by
  unfold releaseLease
  split
  · exact holder_release l keys a a'
  · have hsame : (if holder keys a = some l.runnerId then
        { keys with entry := Function.update keys.entry (key a) none } else keys) =
        (l.release keys a).2 := by
      unfold LeaseManager.release Expiring.deleteIf
      show _ = (if holder keys a = some l.runnerId then _ else _ : Bool × LeaseKeys).2
      split <;> rfl
    rw [hsame]
    exact holder_release l keys a a'

lemma holder_released (acquired : List String) (a : String) :
    holder (acquired.foldl (releaseLease l scripted) keys) a =
      if a ∈ acquired ∧ holder keys a = some l.runnerId then none else holder keys a := by
  induction acquired generalizing keys with
  | nil => simp
  | cons b acquired ih =>
    rw [List.foldl_cons, ih, holder_releaseLease]
    simp only [List.mem_cons]
    by_cases hab : a = b
    · subst hab
      by_cases hheld : holder keys a = some l.runnerId <;> simp [hheld]
    · simp [hab]

end Release

/-! ## One group -/

section Group

variable {l : LeaseManager} {scripted : String → Bool} {start keys : LeaseKeys}

/-- The lease belongs to another runner. -/
def Foreign (l : LeaseManager) (keys : LeaseKeys) (a : String) : Prop :=
  holder keys a ≠ none ∧ holder keys a ≠ some l.runnerId

instance (l : LeaseManager) (keys : LeaseKeys) : DecidablePred (Foreign l keys) := fun _ =>
  inferInstanceAs (Decidable (_ ∧ _))

/-- The holder after the runner has got hold of some leases. -/
def holderWith (l : LeaseManager) (start : LeaseKeys) (acquired : List String) (a : String) :
    Option String :=
  if a ∈ acquired ∧ holder start a = none then some l.runnerId else holder start a

lemma holderWith_own {acquired : List String} {a : String} (ha : a ∈ acquired)
    (hown : ¬ Foreign l start a) : holderWith l start acquired a = some l.runnerId := by
  unfold holderWith
  by_cases hfree : holder start a = none
  · rw [if_pos ⟨ha, hfree⟩]
  · rw [if_neg fun h => hfree h.2]
    by_contra hne
    exact hown ⟨hfree, hne⟩

lemma holderWith_of_not_mem {acquired : List String} {a : String} (ha : a ∉ acquired) :
    holderWith l start acquired a = holder start a := if_neg fun h => ha h.1

section Steps

variable {acquired rest : List String} {a : String} {keys' : LeaseKeys}

lemma claimFrom_of_acquired (hpositive : l.ttlSec ≠ 0) (h : l.acquire keys a = (true, keys')) :
    claimFrom l scripted acquired (a :: rest) keys = claimFrom l scripted (acquired ++ [a]) rest keys' := by
  rw [claimFrom, if_neg hpositive, h]

lemma claimFrom_of_held (hpositive : l.ttlSec ≠ 0) (h : l.acquire keys a = (false, keys'))
    (hheld : holder keys' a = some l.runnerId) :
    claimFrom l scripted acquired (a :: rest) keys =
      claimFrom l scripted (acquired ++ [a]) rest (l.renew keys' a).2 := by
  rw [claimFrom, if_neg hpositive, h]
  exact if_pos hheld

lemma claimFrom_of_refused (hpositive : l.ttlSec ≠ 0) (h : l.acquire keys a = (false, keys'))
    (hheld : holder keys' a ≠ some l.runnerId) :
    claimFrom l scripted acquired (a :: rest) keys =
      .ok (false, acquired.foldl (releaseLease l scripted) keys') := by
  rw [claimFrom, if_neg hpositive, h]
  exact if_neg hheld

end Steps

variable (scripted) in
/-- One lease: it is got hold of, unless it belongs to another runner. -/
lemma claimFrom_cons (httl : 0 < l.ttlSec) {acquired : List String}
    (hkeys : ∀ a, holder keys a = holderWith l start acquired a)
    (hown : ∀ a ∈ acquired, ¬ Foreign l start a) (a : String) (rest : List String) :
    (¬ Foreign l start a ∧ ∃ keys', (∀ a', holder keys' a' = holderWith l start (acquired ++ [a]) a') ∧
        claimFrom l scripted acquired (a :: rest) keys =
          claimFrom l scripted (acquired ++ [a]) rest keys') ∨
      (Foreign l start a ∧ claimFrom l scripted acquired (a :: rest) keys =
        .ok (false, acquired.foldl (releaseLease l scripted) keys)) := by
  have hpositive : l.ttlSec ≠ 0 := by omega
  rcases acquire_cases l keys a with ⟨hfree, -, htrue, hafter⟩ | ⟨hfalse, hsame⟩
  · -- a free lease
    left
    have hstart : holder start a = none := by
      rw [hkeys, holderWith] at hfree
      split at hfree
      · cases hfree
      · exact hfree
    refine ⟨fun h => h.1 hstart, (l.acquire keys a).2, fun a' => ?_, ?_⟩
    · rw [hafter, hkeys, holderWith, holderWith]
      by_cases ha : a' = a
      · subst ha
        simp [hstart]
      · simp [ha]
    · exact claimFrom_of_acquired hpositive (Prod.ext htrue rfl)
  · have hpair : l.acquire keys a = (false, keys) := Prod.ext hfalse hsame
    have htaken : holder keys a ≠ none := by
      intro hnone
      have hset : (l.acquire keys a).1 = true := by
        unfold LeaseManager.acquire Expiring.setNx
        rw [if_pos ⟨hnone, httl⟩]
      rw [hfalse] at hset
      cases hset
    by_cases hheld : holder keys a = some l.runnerId
    · -- a lease of the runner
      left
      have hours : ¬ Foreign l start a := by
        by_cases ha : a ∈ acquired
        · exact hown a ha
        · rw [hkeys, holderWith_of_not_mem ha] at hheld
          exact fun h => h.2 hheld
      refine ⟨hours, (l.renew keys a).2, fun a' => ?_, claimFrom_of_held hpositive hpair hheld⟩
      rw [holder_renew fun _ => httl]
      by_cases ha : a' = a
      · subst ha
        rw [hheld, holderWith_own (List.mem_append_right _ List.mem_cons_self) hours]
      · rw [hkeys, holderWith, holderWith]
        simp [ha]
    · -- a lease of another runner
      right
      have ha : a ∉ acquired := by
        intro ha
        rw [hkeys, holderWith_own ha (hown a ha)] at hheld
        exact hheld rfl
      have hstep : claimFrom l scripted acquired (a :: rest) keys =
          .ok (false, acquired.foldl (releaseLease l scripted) keys) :=
        claimFrom_of_refused hpositive hpair hheld
      rw [hkeys, holderWith_of_not_mem ha] at htaken hheld
      exact ⟨⟨htaken, hheld⟩, hstep⟩

variable (scripted) in
/-- What the loop leaves: all leases of the group held, or the ones before the first foreign one free. -/
lemma claimFrom_spec (httl : 0 < l.ttlSec) (alphaIds : List String) {acquired : List String}
    (hkeys : ∀ a, holder keys a = holderWith l start acquired a)
    (hown : ∀ a ∈ acquired, ¬ Foreign l start a) :
    ((∀ a ∈ alphaIds, ¬ Foreign l start a) ∧ ∃ keys',
        claimFrom l scripted acquired alphaIds keys = .ok (true, keys') ∧
        ∀ a, holder keys' a = holderWith l start (acquired ++ alphaIds) a) ∨
      ((∃ a ∈ alphaIds, Foreign l start a) ∧ ∃ keys',
        claimFrom l scripted acquired alphaIds keys = .ok (false, keys') ∧
        ∀ a, holder keys' a =
          if a ∈ acquired ++ alphaIds.takeWhile fun a => ¬ Foreign l start a then none
          else holder start a) := by
  induction alphaIds generalizing keys acquired with
  | nil =>
    refine .inl ⟨fun a ha => absurd ha List.not_mem_nil, keys, rfl, fun a => ?_⟩
    rw [List.append_nil, hkeys]
  | cons a rest ih =>
    rcases claimFrom_cons scripted httl hkeys hown a rest with
      ⟨hours, keys', hkeys', hstep⟩ | ⟨hforeign, hstep⟩
    · have hown' : ∀ a' ∈ acquired ++ [a], ¬ Foreign l start a' := by
        intro a' ha'
        rcases List.mem_append.mp ha' with h | h
        · exact hown a' h
        · rwa [List.mem_singleton.mp h]
      have htake : (a :: rest).takeWhile (fun a => decide (¬ Foreign l start a)) =
          a :: rest.takeWhile fun a => decide (¬ Foreign l start a) :=
        List.takeWhile_cons_of_pos (decide_eq_true hours)
      have hassoc (ids : List String) : acquired ++ a :: ids = acquired ++ [a] ++ ids :=
        List.append_cons acquired a ids
      rw [hstep, htake, hassoc rest, hassoc (rest.takeWhile _)]
      rcases ih hkeys' hown' with ⟨hall, hheld⟩ | ⟨⟨b, hb, hforeign⟩, hreleased⟩
      · exact .inl ⟨List.forall_mem_cons.mpr ⟨hours, hall⟩, hheld⟩
      · exact .inr ⟨⟨b, List.mem_cons_of_mem _ hb, hforeign⟩, hreleased⟩
    · refine .inr ⟨⟨a, List.mem_cons_self, hforeign⟩, _, hstep, fun a' => ?_⟩
      have htake : (a :: rest).takeWhile (fun a => decide (¬ Foreign l start a)) = [] :=
        List.takeWhile_cons_of_neg (by simp [hforeign])
      rw [htake, List.append_nil, holder_released, hkeys]
      by_cases ha : a' ∈ acquired
      · rw [if_pos ⟨ha, holderWith_own ha (hown a' ha)⟩, if_pos ha]
      · rw [if_neg fun h => ha h.1, if_neg ha, holderWith_of_not_mem ha]

/-- A failed claim leaves every lease with its owner. -/
def FailsCleanly (l : LeaseManager) (scripted : String → Bool) (group : AlphaGroup) (keys : LeaseKeys) :
    Prop :=
  ∀ keys', claimAlphaGroup l scripted group keys = .ok (false, keys') →
    ∀ a, holder keys' a = holder keys a

/-- A claim that succeeds holds every lease of the group. -/
def HoldsAll (l : LeaseManager) (scripted : String → Bool) (group : AlphaGroup) (keys : LeaseKeys) :
    Prop :=
  ∀ keys', claimAlphaGroup l scripted group keys = .ok (true, keys') →
    ∀ a ∈ group.alphaIds, holder keys' a = some l.runnerId

/-- No lease of the group belongs to another runner, or the runner holds none of those before the first
one that does. -/
def NothingHeldBefore (l : LeaseManager) (group : AlphaGroup) (keys : LeaseKeys) : Prop :=
  (∀ a ∈ group.alphaIds, ¬ Foreign l keys a) ∨
    ∀ a ∈ group.alphaIds.takeWhile fun a => ¬ Foreign l keys a, holder keys a ≠ some l.runnerId

variable (scripted) in
lemma claimAlphaGroup_spec (httl : 0 < l.ttlSec) (group : AlphaGroup) (keys : LeaseKeys) :
    ((∀ a ∈ group.alphaIds, ¬ Foreign l keys a) ∧ ∃ keys',
        claimAlphaGroup l scripted group keys = .ok (true, keys') ∧
        ∀ a ∈ group.alphaIds, holder keys' a = some l.runnerId) ∨
      ((∃ a ∈ group.alphaIds, Foreign l keys a) ∧ ∃ keys',
        claimAlphaGroup l scripted group keys = .ok (false, keys') ∧
        ∀ a, holder keys' a =
          if a ∈ group.alphaIds.takeWhile fun a => ¬ Foreign l keys a then none else holder keys a) := by
  have hstart : ∀ a, holder keys a = holderWith l keys [] a := fun a =>
    (holderWith_of_not_mem List.not_mem_nil).symm
  rcases claimFrom_spec scripted httl group.alphaIds hstart
      (fun a ha => absurd ha List.not_mem_nil) with ⟨hown, keys', hclaim, hheld⟩ | h
  · exact .inl ⟨hown, keys', hclaim, fun a ha => by rw [hheld]; exact holderWith_own ha (hown a ha)⟩
  · exact .inr h

/-- Without a time to live nothing is claimed, and nothing returned. -/
lemma claimAlphaGroup_refused (hzero : l.ttlSec = 0) {group : AlphaGroup} (hne : group.alphaIds ≠ []) :
    claimAlphaGroup l scripted group keys = .error .invalidExpire := by
  obtain ⟨a, rest, hids⟩ := List.exists_cons_of_ne_nil hne
  rw [claimAlphaGroup, hids, claimFrom, if_pos hzero]

lemma holdsAll (l : LeaseManager) (scripted : String → Bool) (group : AlphaGroup) (keys : LeaseKeys) :
    HoldsAll l scripted group keys := by
  intro keys' hclaim a ha
  by_cases httl : 0 < l.ttlSec
  · rcases claimAlphaGroup_spec scripted httl group keys with ⟨-, keys'', hok, hheld⟩ | ⟨-, keys'', hfail, -⟩
    · rw [hok] at hclaim
      cases hclaim
      exact hheld a ha
    · rw [hfail] at hclaim
      cases hclaim
  · rw [claimAlphaGroup_refused (by omega) (List.ne_nil_of_mem ha)] at hclaim
    cases hclaim

/-- What a claim gives back it had, or had just taken. -/
lemma failsCleanly_iff (httl : 0 < l.ttlSec) (group : AlphaGroup) (keys : LeaseKeys) :
    FailsCleanly l scripted group keys ↔ NothingHeldBefore l group keys := by
  rcases claimAlphaGroup_spec scripted httl group keys with
    ⟨hown, keys', hok, -⟩ | ⟨⟨b, hb, hforeign⟩, keys', hfail, hleft⟩
  · refine iff_of_true (fun keys'' hfail => ?_) (.inl hown)
    rw [hok] at hfail
    cases hfail
  · constructor
    · intro hclean
      refine .inr fun a ha hheld => ?_
      have hsame := hclean keys' hfail a
      rw [hleft, if_pos ha, hheld] at hsame
      cases hsame
    · rintro (hown | hnone) keys'' hclaim a
      · exact absurd hforeign (hown b hb)
      · rw [hfail] at hclaim
        cases hclaim
        rw [hleft]
        split
        · -- a lease before the first foreign one was free
          rename_i ha
          have hdecided := List.mem_takeWhile_imp ha
          have hours : ¬ Foreign l keys a := of_decide_eq_true hdecided
          by_contra hne
          exact hours ⟨fun h => hne h.symm, hnone a ha⟩
        · rfl

end Group

/-! ## All groups -/

section Groups

variable {κ α : Type} [DecidableEq κ]

/-- The slices of a list put together are the list. -/
lemma chunks_flatten {n : ℕ} (hn : 0 < n) (l : List α) : (chunks n l).flatten = l := by
  have htake (m : ℕ) : ((List.range m).map fun i => (l.drop (i * n)).take n).flatten = l.take (m * n) := by
    induction m with
    | zero => rw [Nat.zero_mul, List.take_zero]; rfl
    | succ m ih =>
      rw [List.range_succ, List.map_append, List.flatten_append, ih, Nat.succ_mul, List.take_add]
      simp
  have hlong : l.length ≤ (l.length + n - 1) / n * n := by
    have hdiv := Nat.div_add_mod (l.length + n - 1) n
    have hmod := Nat.mod_lt (l.length + n - 1) hn
    rw [Nat.mul_comm] at hdiv
    omega
  rw [chunks, htake, List.take_of_length_le hlong]

/-- An element put at the end of one of the lists. -/
lemma flatMap_append_one {k : κ} {v : List α} (x : α) {rows : List (κ × List α)}
    (hnodup : (rows.map Prod.fst).Nodup) (hmem : (k, v) ∈ rows) :
    ((rows.map fun p => if p.1 = k then (p.1, v ++ [x]) else p).flatMap Prod.snd).Perm
      (rows.flatMap Prod.snd ++ [x]) := by
  induction rows with
  | nil => cases hmem
  | cons p rows ih =>
    rw [List.map_cons, List.nodup_cons] at hnodup
    obtain ⟨hnew, hrest⟩ := hnodup
    rw [List.map_cons, List.flatMap_cons, List.flatMap_cons]
    by_cases hp : p.1 = k
    · have hpv : p = (k, v) := by
        rcases List.mem_cons.mp hmem with h | h
        · exact h.symm
        · exact absurd (List.mem_map.mpr ⟨_, h, rfl⟩) (hp ▸ hnew)
      have hsame : (rows.map fun p => if p.1 = k then (p.1, v ++ [x]) else p) = rows := by
        conv_rhs => rw [← List.map_id rows]
        refine List.map_congr_left fun q hq => ?_
        have hne : q.1 ≠ k := fun h => hnew (List.mem_map.mpr ⟨q, hq, by rw [h, hp]⟩)
        rw [if_neg hne, id]
      rw [hsame, if_pos hp, hpv, List.append_assoc, List.append_assoc]
      exact List.Perm.append_left v List.perm_append_comm
    · have hin : (k, v) ∈ rows := by
        rcases List.mem_cons.mp hmem with h | h
        · exact absurd (congrArg Prod.fst h).symm hp
        · exact h
      rw [if_neg hp, List.append_assoc]
      exact List.Perm.append_left p.2 (ih hrest hin)

/-- The lists of a dictionary, after an element has been put at the end of one. -/
lemma flatMap_set_append (d : Dict κ (List α)) (k : κ) (x : α) :
    ((d.set k ((d.get? k).getD [] ++ [x])).rows.flatMap Prod.snd).Perm
      (d.rows.flatMap Prod.snd ++ [x]) := by
  cases hget : d.get? k with
  | none =>
    have hnew : d.contains k = false := by
      rw [Bool.eq_false_iff]
      intro hin
      obtain ⟨p, hp, rfl⟩ := (Table.contains_iff d k).mp hin
      have hsome := (Dict.get?_some_iff d p.1 p.2).mpr hp
      rw [hget] at hsome
      cases hsome
    rw [Dict.rows_set_of_not_contains hnew, List.flatMap_append]
    simp
  | some v =>
    have hmem := (Dict.get?_some_iff d k v).mp hget
    have hin : d.contains k = true := (Table.contains_iff d k).mpr ⟨_, hmem, rfl⟩
    unfold Dict.set
    rw [if_pos hin, Option.getD_some]
    exact flatMap_append_one x d.nodup_keys hmem

end Groups

section AllGroups

variable {l : LeaseManager} {scripted : String → Bool}

lemma flatMap_byTf (configs : List AlphaConfig) :
    ((byTf configs).rows.flatMap Prod.snd).Perm configs := by
  have hgrow (rest : List AlphaConfig) (d : Dict String (List AlphaConfig)) :
      ((rest.foldl (fun by_tf cfg => by_tf.set cfg.tfKey ((by_tf.get? cfg.tfKey).getD [] ++ [cfg]))
        d).rows.flatMap Prod.snd).Perm (d.rows.flatMap Prod.snd ++ rest) := by
    induction rest generalizing d with
    | nil => rw [List.append_nil, List.foldl_nil]
    | cons cfg rest ih =>
      rw [List.foldl_cons]
      refine (ih _).trans ?_
      rw [List.append_cons (d.rows.flatMap Prod.snd)]
      exact (flatMap_set_append d cfg.tfKey cfg).append_right rest
  exact hgrow configs .empty

/-- The groups are the configurations, in another order. -/
lemma flatMap_groups {n : ℕ} (hn : 0 < n) (configs : List AlphaConfig) :
    ((groupAlphasByTfSet configs n).flatMap AlphaGroup.configs).Perm configs := by
  refine List.Perm.trans (List.Perm.flatMap_right _ (List.perm_insertionSort _ _)) ?_
  refine List.Perm.trans (List.Perm.of_eq ?_) (flatMap_byTf configs)
  rw [List.flatMap_assoc]
  refine congrArg (fun f => (byTf configs).rows.flatMap f) (funext fun p => ?_)
  rw [List.flatMap_map]
  show (chunks n p.2).flatMap id = p.2
  rw [List.flatMap_id, chunks_flatten hn]

/-- What is claimed are parts of the groups, as many configurations as there are slots at most. -/
lemma claimGroups_spec {remaining : ℕ} (groups : List AlphaGroup) {claimed result : List AlphaConfig}
    {keys keys' : LeaseKeys} (hroom : claimed.length ≤ remaining)
    (h : claimGroups l scripted remaining claimed groups keys = .ok (result, keys')) :
    result.length ≤ remaining ∧
      ∃ more, result = claimed ++ more ∧ more.Sublist (groups.flatMap AlphaGroup.configs) := by
  induction groups generalizing claimed keys with
  | nil =>
    cases h
    exact ⟨hroom, [], (List.append_nil _).symm, .slnil⟩
  | cons group groups ih =>
    unfold claimGroups at h
    dsimp only at h
    split at h
    · cases h
      exact ⟨hroom, [], (List.append_nil _).symm, List.nil_sublist _⟩
    · rename_i hslots
      cases hclaim : claimAlphaGroup l scripted (group.cut (remaining - claimed.length)) keys with
      | error e =>
        rw [hclaim] at h
        cases h
      | ok r =>
        rw [hclaim] at h
        obtain ⟨ok, after⟩ := r
        simp only [bind, Except.bind] at h
        have hcut : (group.cut (remaining - claimed.length)).configs.Sublist group.configs ∧
            (group.cut (remaining - claimed.length)).configs.length ≤ remaining - claimed.length := by
          unfold AlphaGroup.cut
          split
          · exact ⟨List.take_sublist _ _, List.length_take_le _ _⟩
          · exact ⟨List.Sublist.refl _, by omega⟩
        cases ok with
        | false =>
          obtain ⟨hlength, more, hresult, hmore⟩ := ih hroom h
          exact ⟨hlength, more, hresult, hmore.trans (List.sublist_append_right _ _)⟩
        | true =>
          have hroom' : (claimed ++ (group.cut (remaining - claimed.length)).configs).length ≤
              remaining := by
            rw [List.length_append]
            omega
          obtain ⟨hlength, more, hresult, hmore⟩ := ih hroom' h
          refine ⟨hlength, (group.cut (remaining - claimed.length)).configs ++ more,
            by rw [hresult, List.append_assoc], ?_⟩
          rw [List.flatMap_cons]
          exact hcut.1.append hmore

/-- The configurations that are claimed are among the given ones, each at most once, and no more than
the runner has room for. -/
theorem claimAlphaGroups_bounded {configs result : List AlphaConfig} {maxAlphasPerRunner alreadyOwned : ℕ}
    {keys keys' : LeaseKeys}
    (h : claimAlphaGroups l scripted configs maxAlphasPerRunner alreadyOwned keys = .ok (result, keys')) :
    result.Subperm configs ∧ result.length ≤ maxAlphasPerRunner - alreadyOwned := by
  unfold claimAlphaGroups at h
  dsimp only at h
  split at h
  · cases h
    exact ⟨List.nil_subperm, Nat.zero_le _⟩
  · rename_i hroom
    obtain ⟨hlength, more, hresult, hmore⟩ := claimGroups_spec _ (Nat.zero_le _) h
    refine ⟨?_, hlength⟩
    rw [hresult, List.nil_append]
    exact hmore.subperm.trans (flatMap_groups (by omega) configs).subperm

/-- The law of the claims: a claim that fails changes no owner, one that succeeds owns its group, and no
configuration is claimed twice or beyond the room of the runner. It holds exactly of the states in which
the runner owns nothing that stands before a foreign lease in the group, and where Redis refuses the time
to live. -/
theorem claimAlphaGroup_law_iff (l : LeaseManager) (scripted : String → Bool) (group : AlphaGroup)
    (keys : LeaseKeys) (configs : List AlphaConfig) (maxAlphasPerRunner alreadyOwned : ℕ) :
    (FailsCleanly l scripted group keys ∧ HoldsAll l scripted group keys ∧
      ∀ result keys', claimAlphaGroups l scripted configs maxAlphasPerRunner alreadyOwned keys =
        .ok (result, keys') →
        result.Subperm configs ∧ result.length ≤ maxAlphasPerRunner - alreadyOwned) ↔
      l.ttlSec = 0 ∨ NothingHeldBefore l group keys := by
  have hclean : FailsCleanly l scripted group keys ↔ l.ttlSec = 0 ∨ NothingHeldBefore l group keys := by
    by_cases hzero : l.ttlSec = 0
    · refine iff_of_true (fun keys' hclaim => ?_) (.inl hzero)
      by_cases hne : group.alphaIds = []
      · rw [claimAlphaGroup, hne] at hclaim
        cases hclaim
      · rw [claimAlphaGroup_refused hzero hne] at hclaim
        cases hclaim
    · rw [or_iff_right hzero]
      exact failsCleanly_iff (by omega) group keys
  rw [← hclean]
  exact and_iff_left ⟨holdsAll l scripted group keys, fun _ _ h => claimAlphaGroups_bounded h⟩

/-- A group of two alphas. -/
def pairGroup : AlphaGroup where
  tfKey := "1m"
  tfSet := ["1m"]
  alphaIds := ["a1", "a2"]
  configs := [{ alphaId := "a1" }, { alphaId := "a2" }]

def claimer : LeaseManager := { runnerId := "runner-1" }

/-- The other runner holds the second lease. -/
def secondTaken : LeaseKeys := (LeaseManager.acquire { runnerId := "runner-2" } {} "a2").2

/-- A runner that already holds the first lease loses it to its own claim. -/
theorem heldLease_released :
    holder (claimer.acquire secondTaken "a1").2 "a1" = some "runner-1" ∧
      ∃ keys', claimAlphaGroup claimer (fun _ => true) pairGroup (claimer.acquire secondTaken "a1").2 =
        .ok (false, keys') ∧ holder keys' "a1" = none :=
  ⟨by decide +kernel, _, rfl, by decide +kernel⟩

end AllGroups

end PaperTrade.Runner
