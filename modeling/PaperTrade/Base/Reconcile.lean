import PaperTrade.Worker.PositionSnapshots
import PaperTrade.Worker.VirtualLedger

/-!
# Reconciling an engine with a position snapshot

`BaseEngine.reconcile_positions` reads the published snapshot of its alpha and makes the local positions
those that it lists: a local position with another id is dropped, a listed one is restored from its row.
Neither the revision nor the age of the snapshot decides what is dropped. There is no await between the
read and the last change of a position.

The heartbeat at the end changes no position and is left out.
-/

namespace PaperTrade.Base

open PaperTrade.Runtime PaperTrade.Worker

/-! ## Reading a snapshot -/

/-- `parse_snapshot`. -/
def parseSnapshot (raw : Option Text) : Option Entries :=
  match raw with
  | none => none
  | some raw =>
    if raw.isEmpty then none
    else match raw.loads with
      | some (.obj payload) =>
        match Entries.get? payload "positions" with
        | some (.arr _) => some payload
        | _ => none
      | _ => none

/-- `snapshot_age_sec`; `now` is an aware time. -/
def snapshotAgeSec (now : DateTime) (snapshot : Entries) : PyFloat :=
  match snapshot.get? "generated_at" with
  | none => .inf false
  | some generatedAt =>
    match (DateTime.parse (pyStr generatedAt).spell).bind now.sub? with
    | none => .inf false
    | some age => (PyFloat.fin (age / 1000000)).max 0

/-- `snapshot["positions"]`. -/
def snapshotPositions (snapshot : Entries) : List Json :=
  match snapshot.get? "positions" with
  | some (.arr positions) => positions
  | _ => []

/-- `str(pos["position_id"])` where it is truthy. -/
def positionId? (pos : Entries) : Option String :=
  match pos.get? "position_id" with
  | some id => if id.truthy then some (strOf id) else none
  | none => none

/-- The listed positions, by id. -/
def authoritative (snapshot : Entries) : Dict String Entries :=
  Dict.collect (fun pos => pos.entries?.bind fun pos => (positionId? pos).map fun id => (id, pos))
    (snapshotPositions snapshot)

/-! ## Restoring a position -/

/-- A number that is computed with. -/
def jsonNumber : Json → Except PyError PyFloat
  | .str _ => .error .typeError
  | v => jsonFloat v

/-- `d.setdefault(k, v)`. -/
def setDefault (d : Entries) (k : String) (v : Json) : Entries :=
  match d.get? k with
  | some _ => d
  | none => d.set k v

/-- `d.get(k)`. -/
def getOrNone (d : Entries) (k : String) : Json := (d.get? k).getD .null

/-- `float(v) if v is not None else None` -/
def optionalFloat : Json → Except PyError Json
  | .null => .ok .null
  | v => (jsonFloat v).map .float

/-- `result["sl"] or result["entry"]` -/
def stopOrEntry (result : Entries) : Json :=
  if (getOrNone result "sl").truthy then getOrNone result "sl" else getOrNone result "entry"

/-- The extrema of a trailing position. -/
def withTrail (result : Entries) (trailDistance : Json) : Except PyError Entries := do
  let distance ← jsonFloat trailDistance
  let result := result.set "trail_distance" (.float distance)
  let stop ← jsonNumber (stopOrEntry result)
  if getOrNone result "side" = .str "LONG" then
    pure (setDefault (setDefault result "hse" (.float (stop + distance))) "lse"
      (getOrNone result "entry"))
  else
    pure (setDefault (setDefault result "hse" (getOrNone result "entry")) "lse"
      (.float (stop - distance)))

/-- The fields that `normalize_position` reads of a row. -/
def rowFields (position metadata : Entries) : Except PyError Entries := do
  let positionId ← item position "position_id"
  let symbol ← item position "symbol"
  let side ← item position "side"
  let entry ← floatItem position "entry_price"
  let qty ← floatItem position "qty"
  let tp ← optionalFloat (getOrNone position "tp")
  let sl ← optionalFloat (getOrNone position "sl")
  let leverage ← (if (getOrNone position "leverage").truthy then getOrNone position "leverage"
    else .int 1).toInt.mapError .intOf
  let exchange := getOrNone position "exchange"
  pure [("position_id", .str (strOf positionId)),
    ("alpha_id", .str (strItemOr position "alpha_id" "")), ("symbol", .str (strOf symbol)),
    ("side", .str (strOf side).toUpper), ("entry", .float entry), ("entry_price", .float entry),
    ("qty", .float qty), ("tp", tp), ("sl", sl), ("leverage", .int leverage),
    ("opened_at", getOrNone position "opened_at"),
    ("exchange", if exchange.truthy then exchange else .str "binance"), ("metadata", .obj metadata)]

/-- The defaults at the end of `normalize_position`. -/
def withDefaults (result : Entries) (size : PyFloat) (hasRuntime : Bool) : Entries :=
  let result := setDefault result "size" (.float size)
  let result := setDefault result "initial_qty" (getOrNone result "qty")
  let result := setDefault result "remaining_qty" (getOrNone result "qty")
  let result := setDefault result "tp_hits" (.int (if hasRuntime then 0 else 2))
  let result := setDefault result "be_active" (.bool false)
  let result := setDefault result "last_tp_signal_bar_time" .null
  let result := setDefault result "entry_candle_open_ms" (.int 0)
  let result := setDefault result "signal_candle_close_ms" (.int 0)
  let result := setDefault result "last_managed_ms" (getOrNone result "signal_candle_close_ms")
  let result := setDefault result "post_hold_sl" (getOrNone result "sl")
  let result := setDefault result "post_hold_tp" (getOrNone result "tp")
  let result := setDefault result "post_hold_tpsl_activated" (.bool true)
  let result := setDefault result "bar_count" (.int 0)
  setDefault result "be_activated" (.bool false)

/-- The metadata of a row. -/
def metadataOf (position : Entries) : Entries := ((position.get? "metadata").bind Json.entries?).getD []

/-- `metadata.get("strategy_runtime")` where it is a dictionary. -/
def runtimeOf (metadata : Entries) : Option Entries :=
  (metadata.get? "strategy_runtime").bind Json.entries?

/-- `float(metadata.get("trade_size", result["entry"] * result["qty"]))` -/
def tradeSize (metadata result : Entries) : Except PyError PyFloat := do
  let entry ← jsonNumber (getOrNone result "entry")
  let qty ← jsonNumber (getOrNone result "qty")
  match metadata.get? "trade_size" with
  | some size => jsonFloat size
  | none => pure (entry * qty)

/-- `normalize_position`. -/
def normalizePosition (position : Entries) : Except PyError Entries := do
  let metadata := metadataOf position
  let fields ← rowFields position metadata
  let result := fields.update ((runtimeOf metadata).getD [])
  let trailDistance := (result.get? "trail_distance").getD (getOrNone metadata "trail_distance")
  let result ← if trailDistance = .null then pure result else withTrail result trailDistance
  let size ← tradeSize metadata result
  pure (withDefaults result size (runtimeOf metadata).isSome)

/-- `BaseEngine.restore_position`. -/
def restorePosition (position : Entries) : Except PyError (Option Entries) :=
  (normalizePosition position).map some

/-! ## The engine -/

/-- The settings of the reconciliation. -/
structure ReconcileConfig where
  positionSnapshotMaxAgeSec : PyFloat := 15
  reconcileNoPositionIsOk : Bool := true
  reconcileStaleSuspendNewEntries : Bool := true

/-- What `reconcile_positions` reads and writes of an engine. -/
structure BaseEngine where
  /-- `_open_positions`, by symbol -/
  openPositions : Dict String Entries
  authoritativeRevision : Option ℤ := none
  authoritativePositionIds : List String := []
  snapshotAge : PyFloat := .inf false
  positionReconcileStale : Bool := false

namespace BaseEngine

/-- `_local_positions_by_id`: the symbol of each id. -/
def localPositionsById (e : BaseEngine) : Dict String String :=
  Dict.collect (fun p => (positionId? p.2).map fun id => (id, p.1)) e.openPositions.rows

/-- The engine manages a position with this id. -/
def Manages (e : BaseEngine) (id : String) : Prop :=
  ∃ p ∈ e.openPositions.rows, positionId? p.2 = some id

/-- `_accept_empty_position_reconcile`. -/
def acceptEmpty (e : BaseEngine) (revision : ℤ) (age : PyFloat) : BaseEngine :=
  { e with
    snapshotAge := age
    authoritativeRevision := some revision
    authoritativePositionIds := []
    positionReconcileStale := false }

/-- The loop that drops the local positions that are not listed. -/
def dropUnlisted (e : BaseEngine) (listed : Dict String Entries) : BaseEngine :=
  { e with
    openPositions := e.localPositionsById.rows.foldl (fun positions p =>
      if listed.contains p.1 then positions else positions.erase p.2) e.openPositions }

/-- The loop that restores the listed positions; `some` ends the reconciliation early. -/
def restoreListed (stale : Bool) :
    List (String × Entries) → BaseEngine → Option (Except PyError Bool) × BaseEngine
  | [], e => (none, e)
  | (_, raw) :: rest, e =>
    match restorePosition raw with
    | .error err => (some (.error err), e)
    | .ok none =>
      if stale then restoreListed stale rest e
      else (some (.ok false), { e with positionReconcileStale := true })
    | .ok (some restored) =>
      match restored.get? "symbol" with
      | none => (some (.error (.keyError "symbol")), e)
      | some symbol =>
        restoreListed stale rest
          { e with openPositions := e.openPositions.set (strOf symbol) restored }

/-- The reconciliation with a snapshot that lists positions. -/
def reconcileListed (config : ReconcileConfig) (e : BaseEngine) (listed : Dict String Entries)
    (revision : ℤ) (age : PyFloat) : Except PyError Bool × BaseEngine :=
  let stale : Bool := config.positionSnapshotMaxAgeSec < age
  let e := { e with positionReconcileStale := stale && config.reconcileStaleSuspendNewEntries }
  match restoreListed stale listed.rows (e.dropUnlisted listed) with
  | (some r, e) => (r, e)
  | (none, e) =>
    (.ok true, { e with
      authoritativeRevision := some revision
      authoritativePositionIds := listed.keys })

/-- `BaseEngine.reconcile_positions`; `raw` is the value of the snapshot key. -/
def reconcilePositions (config : ReconcileConfig) (now : DateTime) (raw : Option Text)
    (e : BaseEngine) : Except PyError Bool × BaseEngine :=
  match parseSnapshot raw with
  | none =>
    if config.reconcileNoPositionIsOk && e.openPositions.rows.isEmpty then
      (.ok true, e.acceptEmpty 0 0)
    else (.ok false, { e with positionReconcileStale := true })
  | some snapshot =>
    let age := snapshotAgeSec now snapshot
    let e := { e with snapshotAge := age }
    match ((snapshot.get? "revision").getD (.int 0)).toInt with
    | .error err => (.error (.intOf err), e)
    | .ok revision =>
      let listed := authoritative snapshot
      if listed.rows.isEmpty then
        (.ok true, ({ e with openPositions := .empty } : BaseEngine).acceptEmpty revision age)
      else e.reconcileListed config listed revision age

end BaseEngine

/-! ## What a restored position keeps -/

lemma get?_setDefault {d : Entries} {k k' : String} (v : Json) (h : k' ≠ k) :
    (setDefault d k v).get? k' = d.get? k' := by
  unfold setDefault
  split
  · rfl
  · rw [Entries.get?_set, if_neg h]

lemma get?_withTrail {d d' : Entries} {v : Json} {k : String} (h : withTrail d v = .ok d')
    (hk : k ≠ "trail_distance" ∧ k ≠ "hse" ∧ k ≠ "lse") : d'.get? k = d.get? k := by
  obtain ⟨htrail, hhse, hlse⟩ := hk
  simp only [withTrail] at h
  obtain ⟨distance, -, h⟩ := bind_eq_ok h
  obtain ⟨stop, -, h⟩ := bind_eq_ok h
  split at h
  · cases h
    rw [get?_setDefault _ hlse, get?_setDefault _ hhse, Entries.get?_set, if_neg htrail]
  · cases h
    rw [get?_setDefault _ hlse, get?_setDefault _ hhse, Entries.get?_set, if_neg htrail]

/-- The fields that no default is for. -/
def Plain (k : String) : Prop :=
  k ∉ ["size", "initial_qty", "remaining_qty", "tp_hits", "be_active", "last_tp_signal_bar_time",
    "entry_candle_open_ms", "signal_candle_close_ms", "last_managed_ms", "post_hold_sl",
    "post_hold_tp", "post_hold_tpsl_activated", "bar_count", "be_activated", "trail_distance", "hse",
    "lse"]

lemma get?_withDefaults {d : Entries} {size : PyFloat} {hasRuntime : Bool} {k : String}
    (hk : Plain k) : (withDefaults d size hasRuntime).get? k = d.get? k := by
  simp only [Plain, List.mem_cons, List.not_mem_nil, or_false, not_or] at hk
  unfold withDefaults
  dsimp only
  rw [get?_setDefault, get?_setDefault, get?_setDefault, get?_setDefault, get?_setDefault,
    get?_setDefault, get?_setDefault, get?_setDefault, get?_setDefault, get?_setDefault,
    get?_setDefault, get?_setDefault, get?_setDefault, get?_setDefault]
  all_goals tauto

/-- The `strategy_runtime` of the row carries neither an id nor a symbol, as
`serialize_position_runtime` leaves them out. -/
def CleanRow (position : Entries) : Prop :=
  ∀ runtime, runtimeOf (metadataOf position) = some runtime →
    ∀ v, ("position_id", v) ∉ runtime ∧ ("symbol", v) ∉ runtime

/-- A restored position has the id and the symbol of its row. -/
lemma normalizePosition_keeps {position restored : Entries} (hclean : CleanRow position)
    (h : normalizePosition position = .ok restored) : ∃ id symbol,
      item position "position_id" = .ok id ∧ restored.get? "position_id" = some (.str (strOf id)) ∧
      item position "symbol" = .ok symbol ∧ restored.get? "symbol" = some (.str (strOf symbol)) := by
  simp only [normalizePosition] at h
  obtain ⟨fields, hfields, h⟩ := bind_eq_ok h
  have hkeeps : ∀ k, Plain k → (∀ v, (k, v) ∉ (runtimeOf (metadataOf position)).getD []) →
      restored.get? k = fields.get? k := by
    intro k hk hruntime
    have hupdate := Entries.get?_update_of_not_mem fields _ k hruntime
    have htrail : k ≠ "trail_distance" ∧ k ≠ "hse" ∧ k ≠ "lse" := by
      simp only [Plain, List.mem_cons, List.not_mem_nil, or_false, not_or] at hk
      tauto
    split at h
    · obtain ⟨result, hresult, h⟩ := bind_eq_ok h
      obtain ⟨size, -, h⟩ := bind_eq_ok h
      have heq : withDefaults result size _ = restored := Except.ok.inj h
      rw [← heq, get?_withDefaults hk, ← hupdate, Except.ok.inj hresult]
    · obtain ⟨result, hresult, h⟩ := bind_eq_ok h
      obtain ⟨size, -, h⟩ := bind_eq_ok h
      have heq : withDefaults result size _ = restored := Except.ok.inj h
      rw [← heq, get?_withDefaults hk, ← hupdate]
      exact get?_withTrail hresult htrail
  have hruntime : ∀ v, ("position_id", v) ∉ (runtimeOf (metadataOf position)).getD [] ∧
      ("symbol", v) ∉ (runtimeOf (metadataOf position)).getD [] := by
    intro v
    cases hr : runtimeOf (metadataOf position) with
    | none => simp
    | some runtime => exact hclean runtime hr v
  have hid := hkeeps "position_id" (by simp [Plain]) fun v => (hruntime v).1
  have hsymbol := hkeeps "symbol" (by simp [Plain]) fun v => (hruntime v).2
  simp only [rowFields] at hfields
  obtain ⟨id, hitem, hfields⟩ := bind_eq_ok hfields
  obtain ⟨symbol, hitem', hfields⟩ := bind_eq_ok hfields
  obtain ⟨_, -, hfields⟩ := bind_eq_ok hfields
  obtain ⟨_, -, hfields⟩ := bind_eq_ok hfields
  obtain ⟨_, -, hfields⟩ := bind_eq_ok hfields
  obtain ⟨_, -, hfields⟩ := bind_eq_ok hfields
  obtain ⟨_, -, hfields⟩ := bind_eq_ok hfields
  obtain ⟨_, -, hfields⟩ := bind_eq_ok hfields
  cases hfields
  exact ⟨id, symbol, hitem, hid, hitem', hsymbol⟩

lemma item_eq_ok {event : Entries} {k : String} {v : Json} :
    item event k = .ok v ↔ event.get? k = some v := by
  unfold item required
  cases event.get? k <;> simp

/-- The symbol of a row. -/
def symbolOf (position : Entries) : Option String := (position.get? "symbol").map strOf

/-- A restored position with an id has that of its row. -/
lemma positionId?_restored {position restored : Entries} (hclean : CleanRow position)
    (h : normalizePosition position = .ok restored) {id rowId : String}
    (hid : positionId? restored = some id) (hrow : positionId? position = some rowId) : id = rowId := by
  obtain ⟨v, -, hitem, hget, -⟩ := normalizePosition_keeps hclean h
  rw [item_eq_ok] at hitem
  unfold positionId? at hid hrow
  rw [hget] at hid
  rw [hitem] at hrow
  dsimp only at hid hrow
  split at hid
  · split at hrow
    · cases hid
      cases hrow
      rfl
    · cases hrow
  · cases hid

/-! ## What a reconciliation drops -/

namespace BaseEngine

/-- The positions with this id are held under this symbol. -/
def PlacedAt (e : BaseEngine) (id symbol : String) : Prop :=
  ∀ p ∈ e.openPositions.rows, positionId? p.2 = some id → p.1 = symbol

lemma mem_foldl_erase (drop : List (String × String)) (listed : Dict String Entries)
    (positions : Dict String Entries) {r : String × Entries}
    (h : r ∈ (drop.foldl (fun positions p =>
      if listed.contains p.1 then positions else positions.erase p.2) positions).rows) :
    r ∈ positions.rows ∧ ∀ p ∈ drop, listed.contains p.1 = false → r.1 ≠ p.2 := by
  induction drop generalizing positions with
  | nil => exact ⟨h, fun p hp => by cases hp⟩
  | cons p drop ih =>
    obtain ⟨hr, hrest⟩ := ih _ h
    dsimp only at hr
    cases hlisted : listed.contains p.1 with
    | true =>
      rw [if_pos hlisted] at hr
      refine ⟨hr, fun q hq hno => ?_⟩
      rcases List.mem_cons.mp hq with rfl | hq
      · rw [hlisted] at hno
        cases hno
      · exact hrest q hq hno
    | false =>
      rw [if_neg (by rw [hlisted]; exact Bool.false_ne_true)] at hr
      obtain ⟨hr, hne⟩ := (Table.mem_erase _ _ _).mp hr
      refine ⟨hr, fun q hq hno => ?_⟩
      rcases List.mem_cons.mp hq with rfl | hq
      · exact hne
      · exact hrest q hq hno

lemma mem_dropUnlisted {e : BaseEngine} {listed : Dict String Entries} {r : String × Entries}
    (h : r ∈ (e.dropUnlisted listed).openPositions.rows) : r ∈ e.openPositions.rows :=
  (mem_foldl_erase _ _ _ h).1

/-- A position that is not listed is dropped. -/
lemma not_manages_dropUnlisted {e : BaseEngine} {listed : Dict String Entries} {id symbol : String}
    (hplaced : e.PlacedAt id symbol) (hunlisted : listed.contains id = false) :
    ¬ (e.dropUnlisted listed).Manages id := by
  rintro ⟨r, hr, hid⟩
  obtain ⟨hmem, hne⟩ := mem_foldl_erase _ _ _ hr
  have hbyId : e.localPositionsById.contains id = true := by
    unfold localPositionsById
    rw [Dict.contains_collect]
    exact ⟨r, hmem, r.1, by rw [hid]; rfl⟩
  obtain ⟨p, hp, rfl⟩ := (Table.contains_iff _ _).mp hbyId
  obtain ⟨r', hr', hf⟩ := Dict.mem_collect _ hp
  rw [Option.map_eq_some_iff] at hf
  obtain ⟨id, hid', rfl⟩ := hf
  -- both rows with the id are under the one symbol
  refine hne _ hp hunlisted ?_
  rw [hplaced r hmem hid, hplaced r' hr' hid']

lemma mem_restoreListed {stale : Bool} {listed : List (String × Entries)} {e : BaseEngine}
    {r : String × Entries} (h : r ∈ (restoreListed stale listed e).2.openPositions.rows) :
    r ∈ e.openPositions.rows ∨ ∃ p ∈ listed, ∃ symbol, normalizePosition p.2 = .ok r.2 ∧
      r.2.get? "symbol" = some symbol ∧ r.1 = strOf symbol := by
  induction listed generalizing e with
  | nil => exact .inl h
  | cons p listed ih =>
    obtain ⟨id, raw⟩ := p
    unfold restoreListed restorePosition at h
    cases hnormalize : normalizePosition raw with
    | error err =>
      rw [hnormalize] at h
      exact .inl h
    | ok restored =>
      rw [hnormalize] at h
      cases hsymbol : restored.get? "symbol" with
      | none =>
        simp only [Except.map, hsymbol] at h
        exact .inl h
      | some symbol =>
        simp only [Except.map, hsymbol] at h
        rcases ih h with h | ⟨q, hq, hfrom⟩
        · rcases (Dict.mem_set _ _ _ _).mp h with rfl | ⟨h, -⟩
          · exact .inr ⟨_, List.mem_cons_self, symbol, hnormalize, hsymbol, rfl⟩
          · exact .inl h
        · exact .inr ⟨q, List.mem_cons_of_mem _ hq, hfrom⟩

/-- A listed position is a row of the snapshot with its id. -/
lemma mem_authoritative {snapshot : Entries} {p : String × Entries}
    (h : p ∈ (authoritative snapshot).rows) :
    .obj p.2 ∈ snapshotPositions snapshot ∧ positionId? p.2 = some p.1 := by
  obtain ⟨v, hv, hf⟩ := Dict.mem_collect _ h
  rw [Option.bind_eq_some_iff] at hf
  obtain ⟨pos, hpos, hf⟩ := hf
  rw [Option.map_eq_some_iff] at hf
  obtain ⟨id, hid, rfl⟩ := hf
  cases v with
  | obj d =>
    cases hpos
    exact ⟨hv, hid⟩
  | _ => cases hpos

/-- The rows of a snapshot that a reconciliation can be trusted with for a position: their
`strategy_runtime` names no other position, and a row of the position has its symbol. -/
def RowsOk (snapshot : Entries) (id symbol : String) : Prop :=
  ∀ pos, .obj pos ∈ snapshotPositions snapshot →
    CleanRow pos ∧ (positionId? pos = some id → symbolOf pos = some symbol)

lemma openPositions_reconcileListed {config : ReconcileConfig} {e : BaseEngine}
    {listed : Dict String Entries} {revision : ℤ} {age : PyFloat} {r : String × Entries}
    (h : r ∈ (e.reconcileListed config listed revision age).2.openPositions.rows) :
    r ∈ (e.dropUnlisted listed).openPositions.rows ∨ ∃ p ∈ listed.rows, ∃ symbol,
      normalizePosition p.2 = .ok r.2 ∧ r.2.get? "symbol" = some symbol ∧ r.1 = strOf symbol := by
  unfold reconcileListed at h
  dsimp only at h
  generalize decide (config.positionSnapshotMaxAgeSec < age) = stale at h
  have hsplit := @mem_restoreListed stale listed.rows (dropUnlisted
    { e with
      positionReconcileStale := stale && config.reconcileStaleSuspendNewEntries } listed) r
  split at h
  · rename_i _ r' e' hrestore
    rw [hrestore] at hsplit
    exact hsplit h
  · rename_i _ e' hrestore
    rw [hrestore] at hsplit
    exact hsplit h

/-- The restored positions with the id are listed under it. -/
lemma restored_placed {snapshot : Entries} {id symbol : String} (hrows : RowsOk snapshot id symbol)
    {p : String × Entries} (hp : p ∈ (authoritative snapshot).rows) {restored : Entries} {v : Json}
    (hnormalize : normalizePosition p.2 = .ok restored) (hsymbol : restored.get? "symbol" = some v)
    (hid : positionId? restored = some id) : p.1 = id ∧ strOf v = symbol := by
  obtain ⟨hmem, hlisted⟩ := mem_authoritative hp
  obtain ⟨hclean, hplace⟩ := hrows _ hmem
  have heq := positionId?_restored hclean hnormalize hid hlisted
  obtain ⟨-, s, -, -, hitem, hget⟩ := normalizePosition_keeps hclean hnormalize
  rw [hget] at hsymbol
  cases hsymbol
  refine ⟨heq.symm, ?_⟩
  have hrow := hplace (by rw [hlisted, heq])
  rw [symbolOf, item_eq_ok.mp hitem] at hrow
  exact Option.some.inj hrow

/-- A snapshot that can be read and does not list a local position drops it. -/
theorem reconcile_drops {config : ReconcileConfig} {now : DateTime} {raw : Option Text}
    {e : BaseEngine} {snapshot : Entries} {revision : ℤ} {id symbol : String}
    (hparse : parseSnapshot raw = some snapshot)
    (hrevision : ((snapshot.get? "revision").getD (.int 0)).toInt = .ok revision)
    (hrows : RowsOk snapshot id symbol) (hplaced : e.PlacedAt id symbol)
    (hunlisted : (authoritative snapshot).contains id = false) :
    ¬ (e.reconcilePositions config now raw).2.Manages id := by
  unfold reconcilePositions
  rw [hparse]
  dsimp only
  rw [hrevision]
  dsimp only
  split
  · rintro ⟨r, hr, -⟩
    cases hr
  · rintro ⟨r, hr, hid⟩
    rcases openPositions_reconcileListed hr with hr | ⟨p, hp, v, hnormalize, hsymbol, -⟩
    · exact not_manages_dropUnlisted (e := { e with snapshotAge := snapshotAgeSec now snapshot })
        hplaced hunlisted ⟨r, hr, hid⟩
    · obtain ⟨heq, -⟩ := restored_placed hrows hp hnormalize hsymbol hid
      rw [Table.not_contains_iff] at hunlisted
      exact hunlisted p hp heq

/-- Without a snapshot the positions stay. -/
lemma reconcile_unread {config : ReconcileConfig} {now : DateTime} {raw : Option Text}
    (e : BaseEngine) (hparse : parseSnapshot raw = none) :
    (e.reconcilePositions config now raw).2.openPositions = e.openPositions := by
  unfold reconcilePositions
  rw [hparse]
  dsimp only
  split <;> rfl

/-- After a reconciliation a position is one that was there, or is restored from the snapshot. -/
lemma mem_reconcilePositions {config : ReconcileConfig} {now : DateTime} {raw : Option Text}
    {e : BaseEngine} {r : String × Entries}
    (h : r ∈ (e.reconcilePositions config now raw).2.openPositions.rows) :
    r ∈ e.openPositions.rows ∨ ∃ snapshot, parseSnapshot raw = some snapshot ∧
      ∃ p ∈ (authoritative snapshot).rows, ∃ symbol, normalizePosition p.2 = .ok r.2 ∧
        r.2.get? "symbol" = some symbol ∧ r.1 = strOf symbol := by
  cases hparse : parseSnapshot raw with
  | none =>
    rw [reconcile_unread e hparse] at h
    exact .inl h
  | some snapshot =>
    unfold reconcilePositions at h
    rw [hparse] at h
    dsimp only at h
    cases hrevision : ((snapshot.get? "revision").getD (.int 0)).toInt with
    | error err =>
      rw [hrevision] at h
      exact .inl h
    | ok revision =>
      rw [hrevision] at h
      dsimp only at h
      split at h
      · cases h
      · rcases openPositions_reconcileListed h with h | h
        · exact .inl (mem_dropUnlisted h)
        · exact .inr ⟨snapshot, rfl, h⟩

/-- A reconciliation keeps each position under its symbol. -/
lemma PlacedAt.reconcile {config : ReconcileConfig} {now : DateTime} {raw : Option Text}
    {e : BaseEngine} {id symbol : String} (hplaced : e.PlacedAt id symbol)
    (hrows : ∀ snapshot, parseSnapshot raw = some snapshot → RowsOk snapshot id symbol) :
    (e.reconcilePositions config now raw).2.PlacedAt id symbol := by
  intro r hr hid
  rcases mem_reconcilePositions hr with hr | ⟨snapshot, hparse, p, hp, v, hnormalize, hsymbol, hkey⟩
  · exact hplaced r hr hid
  · rw [hkey]
    exact (restored_placed (hrows snapshot hparse) hp hnormalize hsymbol hid).2

end BaseEngine

end PaperTrade.Base
