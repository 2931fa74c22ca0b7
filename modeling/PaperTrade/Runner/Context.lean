import PaperTrade.Base.Reconcile

/-!
# The positions that a strategy stores

`StrategyContext` keeps a copy of the open positions of an alpha in Redis, under `runner:positions:…`,
beside the snapshot that the worker publishes. `save_positions` does not write an empty book, and
`clear_positions` deletes the copy. At a start `reconcile_open_positions` takes the snapshot, and the copy
where there is no snapshot.

A run is a sequence of saves and clears of one alpha. It is loaded as it was saved unless the last book is
empty and an earlier one is still stored (`savedIsLoaded_iff`).
-/

namespace PaperTrade.Runner

open PaperTrade.Runtime PaperTrade.Worker PaperTrade.Base

/-- The strings that Redis holds, by key. -/
abbrev RedisStore := Dict String Text

namespace StrategyContext

/-- `f"{POSITIONS_KEY_PREFIX}{self.alpha_id}"` -/
def positionsKey (alphaId : String) : String := "runner:positions:" ++ alphaId

def snapshotKey (alphaId : String) : String := "paper:positions:snapshot:" ++ alphaId

/-! ## The copy of the runner -/

/-- `save_positions`. -/
def savePositions (alphaId : String) (positions : Entries) (redis : RedisStore) : RedisStore :=
  if positions = [] then redis else redis.set (positionsKey alphaId) (.json (.obj positions))

/-- `load_positions`. -/
def loadPositions (alphaId : String) (redis : RedisStore) : Json :=
  match redis.get? (positionsKey alphaId) with
  | none => .obj []
  | some raw => if raw.isEmpty then .obj [] else raw.loads.getD (.obj [])

/-- `clear_positions`. -/
def clearPositions (alphaId : String) (redis : RedisStore) : RedisStore :=
  redis.erase (positionsKey alphaId)

/-! ## The snapshot of the worker -/

/-- A position of the snapshot that the loop keeps, by its id. -/
def authoritativePosition (raw : Json) : Option (String × Entries) := do
  let position ← raw.entries?
  let _ ← positionId? position
  let normalized ← (normalizePosition position).toOption
  pure (strOf (Base.getOrNone normalized "position_id"), normalized)

/-- `load_authoritative_positions`. -/
def loadAuthoritativePositions (alphaId : String) (redis : RedisStore) :
    Option (Dict String Entries) :=
  (parseSnapshot (redis.get? (snapshotKey alphaId))).map fun snapshot =>
    Dict.collect authoritativePosition (snapshotPositions snapshot)

/-! ## The start of a strategy -/

/-- `runner_by_id` of `merge_authoritative_positions`. -/
def runnerById (runnerStore : Json) : Dict String (String × Entries) :=
  Dict.collect (fun p => p.2.entries?.bind fun pos => (positionId? pos).map fun id => (id, p.1, pos))
    (runnerStore.entries?.getD [])

/-- `merge_authoritative_positions`: one position of the snapshot. The symbol of a position is a
string. -/
def mergeAuthoritative (runnerById : Dict String (String × Entries))
    (st : Entries × List String) (p : String × Entries) : Entries × List String :=
  match runnerById.get? p.1 with
  | some (symbol, pos) => (st.1.set symbol (.obj pos), st.2)
  | none =>
    let symbol := Base.getOrNone p.2 "symbol"
    if symbol.truthy then (st.1.set (strOf symbol) (.obj p.2), st.2 ++ [p.1]) else st

/-- `merge_authoritative_positions`: the book, what was adopted, and what was dropped. -/
def mergeAuthoritativePositions (runnerStore : Json) (authoritative : Dict String Entries) :
    Entries × List String × List String :=
  let byId := runnerById runnerStore
  let merged := authoritative.rows.foldl (mergeAuthoritative byId) ([], [])
  (merged.1, merged.2, byId.keys.filter fun pid => authoritative.contains pid = false)

/-- `Strategy.reconcile_open_positions`. -/
def reconcileOpenPositions (alphaId : String) (redis : RedisStore) : Entries :=
  let runnerStore := loadPositions alphaId redis
  match loadAuthoritativePositions alphaId redis with
  | none => runnerStore.entries?.getD []
  | some authoritative => (mergeAuthoritativePositions runnerStore authoritative).1

/-! ## Runs -/

/-- A call that writes the copy. -/
inductive StoreCall
  | save (positions : Entries)
  | clear

/-- What a call does to Redis. -/
def StoreCall.apply (alphaId : String) (redis : RedisStore) : StoreCall → RedisStore
  | save positions => savePositions alphaId positions redis
  | clear => clearPositions alphaId redis

/-- The book that a call leaves. -/
def StoreCall.book : StoreCall → Entries
  | save positions => positions
  | clear => []

/-- Redis after a sequence of calls. -/
def runCalls (alphaId : String) (redis : RedisStore) (calls : List StoreCall) : RedisStore :=
  calls.foldl (StoreCall.apply alphaId) redis

variable {alphaId : String} {redis : RedisStore}

lemma loadPositions_set (redis : RedisStore) (positions : Entries) :
    loadPositions alphaId (redis.set (positionsKey alphaId) (.json (.obj positions))) =
      .obj positions := by
  unfold loadPositions
  rw [Dict.get?_set, if_pos rfl]
  rfl

lemma loadPositions_clear (redis : RedisStore) :
    loadPositions alphaId (clearPositions alphaId redis) = .obj [] := by
  have hget : (clearPositions alphaId redis).get? (positionsKey alphaId) = none := by
    rw [Dict.get?_none_iff]
    intro v hmem
    exact ((Table.mem_erase redis _ _).mp hmem).2 rfl
  unfold loadPositions
  rw [hget]

/-- What is loaded after one more call. -/
lemma loadPositions_apply (redis : RedisStore) (call : StoreCall) :
    loadPositions alphaId (call.apply alphaId redis) =
      match call with
      | .save [] => loadPositions alphaId redis
      | .save positions => .obj positions
      | .clear => .obj [] := by
  cases call with
  | clear => exact loadPositions_clear redis
  | save positions =>
    cases positions with
    | nil => rfl
    | cons p positions => exact loadPositions_set redis (p :: positions)

/-- A book is stored after the calls: since the last clear one was saved that is not empty, or one was
loaded before the calls and there was no clear. -/
def Stores (alphaId : String) (redis : RedisStore) (calls : List StoreCall) : Prop :=
  ∃ later, later <:+ calls ∧ .clear ∉ later ∧
    ((∃ book, book ≠ [] ∧ .save book ∈ later) ∨ later = calls ∧ loadPositions alphaId redis ≠ .obj [])

lemma not_stores_clear (calls : List StoreCall) : ¬ Stores alphaId redis (calls ++ [.clear]) := by
  rintro ⟨later, hsuffix, hclear, hbook⟩
  rcases List.suffix_concat_iff.mp hsuffix with rfl | ⟨t, rfl, -⟩
  · rcases hbook with ⟨book, -, hmem⟩ | ⟨hnil, -⟩
    · exact List.not_mem_nil hmem
    · simp at hnil
  · exact hclear (by simp)

lemma stores_save {book : Entries} (hbook : book ≠ []) (calls : List StoreCall) :
    Stores alphaId redis (calls ++ [.save book]) := by
  refine ⟨[.save book], List.suffix_append .., ?_, .inl ⟨book, hbook, by simp⟩⟩
  simp

lemma stores_save_nil (calls : List StoreCall) :
    Stores alphaId redis (calls ++ [.save []]) ↔ Stores alphaId redis calls := by
  constructor
  · rintro ⟨later, hsuffix, hclear, hbook⟩
    rcases List.suffix_concat_iff.mp hsuffix with rfl | ⟨t, rfl, ht⟩
    · rcases hbook with ⟨book, -, hmem⟩ | ⟨hnil, -⟩
      · exact absurd hmem List.not_mem_nil
      · simp at hnil
    · refine ⟨t, ht, fun h => hclear (List.mem_append_left _ h), ?_⟩
      rcases hbook with ⟨book, hne, hmem⟩ | ⟨heq, hload⟩
      · rcases List.mem_append.mp hmem with hmem | hmem
        · exact .inl ⟨book, hne, hmem⟩
        · obtain rfl : book = [] := by simpa using hmem
          exact absurd rfl hne
      · exact .inr ⟨List.append_cancel_right heq, hload⟩
  · rintro ⟨later, hsuffix, hclear, hbook⟩
    refine ⟨later ++ [.save []], List.suffix_concat_iff.mpr (.inr ⟨later, rfl, hsuffix⟩), ?_, ?_⟩
    · simpa using hclear
    · rcases hbook with ⟨book, hne, hmem⟩ | ⟨rfl, hload⟩
      · exact .inl ⟨book, hne, List.mem_append_left _ hmem⟩
      · exact .inr ⟨rfl, hload⟩

lemma runCalls_concat (calls : List StoreCall) (call : StoreCall) :
    runCalls alphaId redis (calls ++ [call]) = call.apply alphaId (runCalls alphaId redis calls) := by
  unfold runCalls
  rw [List.foldl_append]
  rfl

/-- A book that is stored is loaded. -/
lemma stores_iff (calls : List StoreCall) :
    Stores alphaId redis calls ↔ loadPositions alphaId (runCalls alphaId redis calls) ≠ .obj [] := by
  induction calls using List.reverseRecOn with
  | nil =>
    constructor
    · rintro ⟨later, hsuffix, -, ⟨book, -, hmem⟩ | ⟨-, hload⟩⟩
      · rw [List.suffix_nil.mp hsuffix] at hmem
        exact absurd hmem List.not_mem_nil
      · exact hload
    · intro hload
      exact ⟨[], List.suffix_rfl, List.not_mem_nil, .inr ⟨rfl, hload⟩⟩
  | append_singleton calls call ih =>
    rw [runCalls_concat, loadPositions_apply]
    cases call with
    | clear => exact iff_of_false (not_stores_clear calls) (fun h => h rfl)
    | save positions =>
      cases positions with
      | nil => exact (stores_save_nil calls).trans ih
      | cons p positions =>
        refine iff_of_true (stores_save ?_ calls) ?_ <;> simp

/-! ## What is saved is loaded -/

/-- The book of the last call is loaded, and a start without a snapshot takes it. -/
def SavedIsLoaded (alphaId : String) (redis : RedisStore) (calls : List StoreCall) : Prop :=
  ∀ last, calls.getLast? = some last →
    loadPositions alphaId (runCalls alphaId redis calls) = .obj last.book ∧
    (loadAuthoritativePositions alphaId (runCalls alphaId redis calls) = none →
      reconcileOpenPositions alphaId (runCalls alphaId redis calls) = last.book)

/-- The last call saves an empty book over one that is stored. -/
def EmptiesStored (alphaId : String) (redis : RedisStore) (calls : List StoreCall) : Prop :=
  ∃ earlier, calls = earlier ++ [.save []] ∧ Stores alphaId redis earlier

/-- Without a snapshot the start takes what is loaded. -/
lemma reconcileOpenPositions_of_none {redis : RedisStore} {book : Entries}
    (hload : loadPositions alphaId redis = .obj book)
    (hnone : loadAuthoritativePositions alphaId redis = none) :
    reconcileOpenPositions alphaId redis = book := by
  unfold reconcileOpenPositions
  rw [hnone, hload]
  rfl

/-- What is saved is loaded unless the last call saves an empty book over one that is stored. -/
theorem savedIsLoaded_iff (alphaId : String) (redis : RedisStore) (calls : List StoreCall) :
    SavedIsLoaded alphaId redis calls ↔ ¬ EmptiesStored alphaId redis calls := by
  have hsaved : SavedIsLoaded alphaId redis calls ↔ ∀ last, calls.getLast? = some last →
      loadPositions alphaId (runCalls alphaId redis calls) = .obj last.book :=
    ⟨fun h last hlast => (h last hlast).1,
      fun h last hlast => ⟨h last hlast, reconcileOpenPositions_of_none (h last hlast)⟩⟩
  rw [hsaved]
  constructor
  · rintro h ⟨earlier, rfl, hstores⟩
    have hload := h (.save []) (by simp)
    rw [runCalls_concat] at hload
    exact (stores_iff earlier).mp hstores hload
  · intro h last hlast
    obtain ⟨earlier, rfl⟩ : ∃ earlier, calls = earlier ++ [last] :=
      ⟨calls.dropLast, (List.dropLast_append_getLast? last hlast).symm⟩
    rw [runCalls_concat, loadPositions_apply]
    cases last with
    | clear => rfl
    | save positions =>
      cases positions with
      | nil =>
        -- the earlier book is the empty one
        by_contra hload
        exact h ⟨earlier, rfl, (stores_iff earlier).mpr hload⟩
      | cons p positions => rfl

/-- A book that a rebalance empties comes back. -/
theorem emptied_book_resurrected :
    let book : Entries := [("BTCUSDT", .obj [("position_id", .str "p"), ("symbol", .str "BTCUSDT")])]
    let redis := runCalls "alpha" .empty [.save book, .save []]
    loadPositions "alpha" redis = .obj book ∧ loadAuthoritativePositions "alpha" redis = none ∧
      reconcileOpenPositions "alpha" redis = book ∧
      ¬ SavedIsLoaded "alpha" .empty [.save book, .save []] := by
  intro book redis
  have hload : loadPositions "alpha" redis = .obj book := rfl
  have hnone : loadAuthoritativePositions "alpha" redis = none := by decide +kernel
  refine ⟨hload, hnone, reconcileOpenPositions_of_none hload hnone, fun h => ?_⟩
  have hempty : loadPositions "alpha" redis = .obj [] := (h (.save []) rfl).1
  rw [hload] at hempty
  simp [book] at hempty

end StrategyContext

end PaperTrade.Runner
