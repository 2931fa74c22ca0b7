import PaperTrade.Base.InFlight
import PaperTrade.Base.PushSignal

/-!
# The runtime of a position through the worker and back

`push_signal` sends what the engine remembers of a position with every MODIFY and every partial CLOSE, the
worker merges it into the row, publishes the row, and a reconciliation restores the position from it.

`IsDict` is said of entries whose keys are distinct, as those of a Python dictionary are. `Restored` is what
comes back: each scalar that the last push has serialized, and the fields that the worker owns as the row
has them, but for the defaults of `normalize_position`. The distance of a trailing stop comes back as a
float.
-/

namespace PaperTrade.Base

open PaperTrade.Runtime PaperTrade.Worker

/-! ## Dictionaries -/

/-- The keys are distinct. -/
def IsDict (d : Entries) : Prop := (d.map Prod.fst).Nodup

lemma fst_mem_set {d : Entries} {k k' : String} {v : Json} (h : k' ∈ (d.set k v).map Prod.fst) :
    k' = k ∨ k' ∈ d.map Prod.fst := by
  obtain ⟨p, hp, rfl⟩ := List.mem_map.mp h
  rcases mem_set hp with rfl | hp
  · exact .inl rfl
  · exact .inr (List.mem_map_of_mem hp)

lemma IsDict.set {d : Entries} (h : IsDict d) (k : String) (v : Json) : IsDict (d.set k v) := by
  induction d with
  | nil => exact List.nodup_singleton k
  | cons p d ih =>
    obtain ⟨k', v'⟩ := p
    obtain ⟨hnew, hrest⟩ := List.nodup_cons.mp h
    unfold Entries.set
    by_cases heq : k' = k
    · rw [if_pos heq]
      exact List.nodup_cons.mpr ⟨heq ▸ hnew, hrest⟩
    · rw [if_neg heq]
      refine List.nodup_cons.mpr ⟨fun hmem => ?_, ih hrest⟩
      rcases fst_mem_set hmem with hk | hmem
      · exact heq hk
      · exact hnew hmem

lemma IsDict.update {d : Entries} (h : IsDict d) (e : Entries) : IsDict (d.update e) := by
  induction e generalizing d with
  | nil => exact h
  | cons p e ih => exact ih (h.set p.1 p.2)

lemma IsDict.filter {d : Entries} (h : IsDict d) (p : String × Json → Bool) :
    IsDict (d.filter p) :=
  (List.filter_sublist.map Prod.fst).nodup h

lemma IsDict.finiteEntries {d : Entries} (h : IsDict d) : IsDict (finiteEntries d) := by
  have hkeys : (Base.finiteEntries d).map Prod.fst = d.map Prod.fst := by
    clear h
    induction d with
    | nil => rfl
    | cons p d ih =>
      obtain ⟨k, v⟩ := p
      unfold Base.finiteEntries
      rw [List.map_cons, List.map_cons, ih]
  unfold IsDict
  rw [hkeys]
  exact h

lemma get?_cons (p : String × Json) (d : Entries) (k : String) :
    Entries.get? (p :: d) k = if p.1 = k then some p.2 else Entries.get? d k := rfl

/-- An `update` by a dictionary takes the value of a key from it, where it has one. -/
lemma get?_update {e : Entries} (he : IsDict e) (d : Entries) (k : String) :
    (d.update e).get? k = (e.get? k).or (d.get? k) := by
  induction e generalizing d with
  | nil => rfl
  | cons p e ih =>
    obtain ⟨k', v'⟩ := p
    obtain ⟨hnew, hrest⟩ := List.nodup_cons.mp he
    have hupdate : d.update ((k', v') :: e) = (d.set k' v').update e := rfl
    rw [hupdate, ih hrest, Entries.get?_set, get?_cons]
    by_cases heq : k' = k
    · have hnone : Entries.get? e k = none := by
        rw [get?_eq_none]
        intro v hmem
        have hkey : k ∈ e.map Prod.fst := List.mem_map_of_mem hmem
        exact hnew (heq ▸ hkey)
      rw [if_pos heq, if_pos heq.symm, hnone]
      rfl
    · rw [if_neg heq, if_neg (Ne.symm heq)]

lemma get?_filter {d : Entries} {k : String} {v : Json} (p : String × Json → Bool)
    (h : d.get? k = some v) (hp : p (k, v) = true) (hd : IsDict d) :
    Entries.get? (d.filter p) k = some v := by
  induction d with
  | nil => cases h
  | cons q d ih =>
    obtain ⟨k', v'⟩ := q
    obtain ⟨hnew, hrest⟩ := List.nodup_cons.mp hd
    rw [get?_cons] at h
    by_cases heq : k' = k
    · rw [if_pos heq] at h
      cases h
      rw [List.filter_cons_of_pos (heq ▸ hp), get?_cons, if_pos heq]
    · rw [if_neg heq] at h
      have htail := ih h hrest
      by_cases hq : p (k', v') = true
      · rw [List.filter_cons_of_pos hq, get?_cons, if_neg heq]
        exact htail
      · rw [List.filter_cons_of_neg hq]
        exact htail

/-! ## The fields that the worker owns -/

/-- The runtime is a dictionary that names no field of the worker. -/
structure OwnedFree (runtime : Entries) : Prop where
  isDict : IsDict runtime
  free : ∀ k ∈ workerOwned, ∀ v, (k, v) ∉ runtime

/-- What a push serializes names no field of the worker. -/
lemma ownedFree_serialize {position : Entries} (h : IsDict position) :
    OwnedFree (serializePositionRuntime position) where
  isDict := h.filter _
  free k hk v hmem := by
    have hkept := (List.mem_filter.mp hmem).2
    simp [hk] at hkept

lemma OwnedFree.finiteEntries {runtime : Entries} (h : OwnedFree runtime) :
    OwnedFree (finiteEntries runtime) where
  isDict := h.isDict.finiteEntries
  free k hk v hmem := by
    obtain ⟨v₀, hmem, -⟩ := mem_finiteEntries hmem
    exact h.free k hk v₀ hmem

lemma OwnedFree.update {d e : Entries} (hd : OwnedFree d) (he : OwnedFree e) :
    OwnedFree (d.update e) where
  isDict := hd.isDict.update e
  free k hk v hmem := by
    rcases mem_update hmem with hmem | hmem
    · exact hd.free k hk v hmem
    · exact he.free k hk v hmem

lemma ownedFree_nil : OwnedFree [] := ⟨List.nodup_nil, fun _ _ _ => List.not_mem_nil⟩

/-- The row has a runtime that names no field of the worker, or none. -/
def OwnedFreeRow (row : PositionRow) : Prop := ∀ runtime, rowRuntime row = some runtime → OwnedFree runtime

/-! ## What an accepted push does to the row -/

section Accepted

variable {self : Executor} {s : Tables} {m : Delivery} {p p' : PositionRow} {runtime : Entries}

/-- Metadata with a runtime is not skipped. -/
lemma isBlankObject_of_runtime {text : Text} (h : runtimeOf (loadDict text) = some runtime) :
    text.isBlankObject = false := by
  cases text with
  | chars s =>
    have hblank : runtimeOf (loadDict (.chars "")) = none := by decide +kernel
    have hempty : runtimeOf (loadDict (.chars "{}")) = none := by decide +kernel
    by_contra hs
    rw [Bool.not_eq_false, Text.isBlankObject, Bool.or_eq_true, decide_eq_true_iff,
      decide_eq_true_iff] at hs
    rcases hs with rfl | rfl
    · rw [hempty] at h
      cases h
    · rw [hblank] at h
      cases h
  | num x => rfl
  | json v =>
    cases v with
    | obj d =>
      cases d with
      | nil => cases h
      | cons p d => rfl
    | _ => rfl

lemma rowRuntime_merge {update merged : Text} (hmetadata : p'.metadata = merged)
    (hruntime : runtimeOf (loadDict update) = some runtime)
    (hmerge : mergePositionRuntimeMetadata p.metadata update = .ok merged) :
    rowRuntime p' = some (((rowRuntime p).getD []).update runtime) := by
  rcases runtimeOf_merge hmerge with ⟨hnone, -⟩ | ⟨r, hr, hmerged⟩
  · rw [hnone] at hruntime
    cases hruntime
  · rw [hr] at hruntime
    cases hruntime
    rw [rowRuntime, hmetadata, hmerged]
    rfl

/-- An accepted MODIFY merges its runtime into the row. -/
lemma modify_merges {signal : ModifySignal} {o : Outcome} {s' : Tables}
    (h : ProcessModify s signal (.ok o) s') (hp : p ∈ s.positions.rows)
    (hid : p.positionId = signal.positionId)
    (hruntime : runtimeOf (loadDict signal.metadata) = some runtime)
    (hp' : p' ∈ s'.positions.rows) (hid' : p'.positionId = p.positionId) :
    rowRuntime p' = some (((rowRuntime p).getD []).update runtime) := by
  cases h with
  | modified hfind hstop hmerge =>
    obtain ⟨hmem, hkey⟩ := (s.positions.find?_some_iff _ _).mp hfind
    have hsame := s.positions.eq_of_key_eq hmem hp (hkey.trans hid.symm)
    subst hsame
    unfold mergedMetadata at hmerge
    rw [isBlankObject_of_runtime hruntime, if_neg Bool.false_ne_true] at hmerge
    cases hmerged : mergePositionRuntimeMetadata _ signal.metadata with
    | error e =>
      rw [hmerged] at hmerge
      cases hmerge
    | ok text =>
      rw [hmerged] at hmerge
      cases hmerge
      rcases (mem_modified s signal).mp hp' with ⟨-, hother⟩ | ⟨r, hr, hrid, hrow⟩
      · exact absurd (hid'.trans hid) hother
      · have hsame := s.positions.eq_of_key_eq hr hmem (hrid.trans hid.symm)
        subst hsame
        exact rowRuntime_merge (by rw [hrow]; rfl) hruntime hmerged

/-- An accepted CLOSE that leaves the row merges its runtime into it. -/
lemma close_merges {signal : CloseSignal} {env : Env} {fill : Option FillPrice} {o : Outcome}
    {s' : Tables} (h : ProcessClose self env s signal fill (.ok o) s') (hp : p ∈ s.positions.rows)
    (hid : p.positionId = signal.positionId) (hqty : ∀ o, p.qty = some o → ¬ o ≤ 0)
    (hruntime : runtimeOf (loadDict signal.metadata) = some runtime)
    (hp' : p' ∈ s'.positions.rows) (hid' : p'.positionId = p.positionId) :
    rowRuntime p' = some (((rowRuntime p).getD []).update runtime) := by
  cases h with
  | closed hfind hcheck ho hfill hclose =>
    obtain ⟨hmem, hkey⟩ := (s.positions.find?_some_iff _ _).mp hfind
    have hsame := s.positions.eq_of_key_eq hmem hp (hkey.trans hid.symm)
    subst hsame
    have hrest : runtimeOf (loadDict (Executor.closeMetadata signal _ _ _)) = some runtime :=
      (runtimeOf_closeMetadata hfill).trans hruntime
    cases hclose with
    | missing hnone =>
      rw [show s.positions.find? signal.positionId = none from hnone] at hfind
      cases hfind
    | nothing hfound hq hle =>
      -- neither the quantity of the signal nor that of the row is at most 0
      rw [show s.positions.find? signal.positionId = some _ from hfound] at hfind
      cases hfind
      have hmin : closeQuantity _ (some _) = .ok _ := hq
      rw [closeQuantity, ho] at hmin
      cases hmin
      unfold PyFloat.min at hle
      split at hle
      · exact absurd hle (hqty _ ho)
      · exact absurd hle (checkCloseQty_ok _ hcheck).2.1
    | full hsettles hdust hnew htrades =>
      exact absurd (hid'.trans hid) ((s.positions.mem_erase _ _).mp hp').2
    | partly hsettles hdust hnew htrades hmerge =>
      rcases mem_reduce.mp hp' with ⟨-, hother⟩ | ⟨r, hr, hrid, hrow⟩
      · exact absurd (hid'.trans hid) hother
      · have hfound := (s.positions.find?_some_iff _ _).mp hsettles.found
        have hsame := s.positions.eq_of_key_eq hfound.1 hmem (hfound.2.trans hid.symm)
        have hreduced := s.positions.eq_of_key_eq hr hmem (hrid.trans hid.symm)
        rw [hsame] at hmerge
        subst hreduced
        exact rowRuntime_merge (by rw [hrow]; rfl) hrest hmerge

/-- An accepted MODIFY or CLOSE of a position that stays open merges its runtime into the row. -/
lemma deliver_merges (hacc : Accepted self s m) (htype : m.data.type ∈ [some "MODIFY", some "CLOSE"])
    (hp : p ∈ s.positions.rows) (hid : p.positionId = m.data.positionId.getD "")
    (hqty : m.data.type = some "CLOSE" → ∀ o, p.qty = some o → ¬ o ≤ 0)
    (hruntime : messageRuntime m.data = some runtime)
    (hp' : p' ∈ (deliver self s m).positions.rows) (hid' : p'.positionId = p.positionId) :
    rowRuntime p' = some (((rowRuntime p).getD []).update runtime) := by
  cases hparse : parseSignal m.data with
  | error e =>
    have hd := deliver_cases self m s
    unfold Accepted at hacc
    generalize reply self s m = r at hacc hd
    generalize deliver self s m = s' at hd
    cases hd with
    | accepted _ hparse' _ =>
      rw [hparse] at hparse'
      cases hparse'
    | _ => cases hacc
  | ok signal =>
    obtain ⟨-, o, s', hs', hhandle⟩ := hacc.handled hparse
    rw [hs'] at hp'
    have hname := type_of_parse hparse
    cases signal with
    | modify signal =>
      have hfields := modify_fields hparse
      refine modify_merges hhandle hp (hid.trans hfields.1.symm) ?_ hp' hid'
      rw [hfields.2]
      exact hruntime
    | close signal =>
      have hfields := close_fields hparse
      refine close_merges hhandle hp (hid.trans hfields.1.symm) (hqty hname) ?_ hp' hid'
      rw [hfields.2]
      exact hruntime
    | _ => simp [hname, typeName] at htype

end Accepted

/-! ## A run of pushes -/

/-- One push for the position: the engine holds it as `position`, the worker accepts the MODIFY or the
partial CLOSE, and the row is still there. -/
structure PushApplied (executor : Executor) (json : JsonUtils) (alphaId positionId : String)
    (position : Entries) (s s' : Tables) : Prop where
  isDict : IsDict position
  pushed : ∃ (engine : BaseEngine) (signal sent : RawSignal) (env : Env),
    signal.type ∈ [some "MODIFY", some "CLOSE"] ∧ signal.positionId = some positionId ∧
      engine.held (some positionId) = some position ∧
      engine.pushSignal json alphaId signal = some sent ∧ Accepted executor s ⟨sent, env⟩ ∧
      (signal.type = some "CLOSE" → ∀ row ∈ s.positions.rows, row.positionId = positionId →
        ∀ o, row.qty = some o → ¬ o ≤ 0) ∧
      s' = deliver executor s ⟨sent, env⟩
  stays : s'.positions.contains positionId = true

/-- Some push for the position. -/
def SomePush (executor : Executor) (json : JsonUtils) (alphaId positionId : String) (s s' : Tables) :
    Prop :=
  ∃ position, PushApplied executor json alphaId positionId position s s'

section Run

variable {executor : Executor} {json : JsonUtils} {alphaId positionId : String} {position : Entries}
  {s s' : Tables}

/-- The row after a push has what the engine has serialized, merged into what it had. -/
lemma PushApplied.row (hjson : json.Writes) (h : PushApplied executor json alphaId positionId position s s')
    {p : PositionRow} (hp : p ∈ s.positions.rows) (hid : p.positionId = positionId) :
    ∃ p' ∈ s'.positions.rows, p'.positionId = positionId ∧
      ∃ runtime, (runtime = serializePositionRuntime position ∨
        runtime = finiteEntries (serializePositionRuntime position)) ∧
        rowRuntime p' = some (((rowRuntime p).getD []).update runtime) := by
  obtain ⟨engine, signal, sent, env, htype, hname, hheld, hpush, hacc, hqty, rfl⟩ := h.pushed
  obtain ⟨p', hp', hid'⟩ := (Table.contains_iff _ _).mp h.stays
  obtain ⟨htype', hname', -, -⟩ := pushSignal_fields hpush
  have hruntime : ∃ runtime, (runtime = serializePositionRuntime position ∨
      runtime = finiteEntries (serializePositionRuntime position)) ∧
      messageRuntime sent = some runtime := by
    have hkinds : signal.type ∈ [some "OPEN", some "MODIFY", some "CLOSE"] :=
      List.mem_cons_of_mem _ htype
    rcases messageRuntime_pushSignal hjson hkinds (hname ▸ hheld) hpush with hsent | hsent
    · exact ⟨_, .inl rfl, hsent⟩
    · exact ⟨_, .inr rfl, hsent⟩
  obtain ⟨runtime, heq, hsent⟩ := hruntime
  refine ⟨p', hp', hid', runtime, heq, ?_⟩
  refine deliver_merges hacc (htype' ▸ htype) hp ?_ ?_ hsent hp' (hid'.trans hid.symm)
  · rw [hid, hname', hname]
    rfl
  · intro hclose
    exact hqty (htype' ▸ hclose) p hp hid

/-- The runtime that a push sends names no field of the worker. -/
lemma PushApplied.ownedFree (h : PushApplied executor json alphaId positionId position s s')
    {runtime : Entries} (hruntime : runtime = serializePositionRuntime position ∨
      runtime = finiteEntries (serializePositionRuntime position)) : OwnedFree runtime := by
  rcases hruntime with rfl | rfl
  · exact ownedFree_serialize h.isDict
  · exact (ownedFree_serialize h.isDict).finiteEntries

lemma OwnedFreeRow.getD {row : PositionRow} (h : OwnedFreeRow row) :
    OwnedFree ((rowRuntime row).getD []) := by
  cases hrow : rowRuntime row with
  | none => exact ownedFree_nil
  | some runtime => exact h runtime hrow

/-- Pushes keep the fields of the worker out of the row. -/
lemma SomePush.ownedFreeRow (hjson : json.Writes) (h : SomePush executor json alphaId positionId s s')
    {p : PositionRow} (hp : p ∈ s.positions.rows) (hid : p.positionId = positionId)
    (hfree : OwnedFreeRow p) :
    ∃ p' ∈ s'.positions.rows, p'.positionId = positionId ∧ OwnedFreeRow p' := by
  obtain ⟨position, h⟩ := h
  obtain ⟨p', hp', hid', runtime, hruntime, hrow⟩ := h.row hjson hp hid
  refine ⟨p', hp', hid', fun merged hmerged => ?_⟩
  rw [hrow] at hmerged
  cases hmerged
  exact hfree.getD.update (h.ownedFree hruntime)

/-- A run of pushes keeps the fields of the worker out of the row. -/
lemma pushes_ownedFreeRow (hjson : json.Writes)
    (h : Relation.ReflTransGen (SomePush executor json alphaId positionId) s s') {p : PositionRow}
    (hp : p ∈ s.positions.rows) (hid : p.positionId = positionId) (hfree : OwnedFreeRow p) :
    ∃ p' ∈ s'.positions.rows, p'.positionId = positionId ∧ OwnedFreeRow p' := by
  induction h with
  | refl => exact ⟨p, hp, hid, hfree⟩
  | tail _ hstep ih =>
    obtain ⟨q, hq, hqid, hqfree⟩ := ih
    exact hstep.ownedFreeRow hjson hq hqid hqfree

end Run

/-! ## What is restored -/

/-- Every entry of `d` is one of `d'`. -/
def Extends (d d' : Entries) : Prop := ∀ k v, d.get? k = some v → d'.get? k = some v

lemma Extends.trans {d d' d'' : Entries} (h : Extends d d') (h' : Extends d' d'') : Extends d d'' :=
  fun k v hv => h' k v (h k v hv)

lemma extends_setDefault (d : Entries) (k : String) (v : Json) : Extends d (setDefault d k v) := by
  intro k' w hw
  unfold setDefault
  cases hk : d.get? k with
  | some _ => exact hw
  | none =>
    have hne : k' ≠ k := by
      rintro rfl
      rw [hk] at hw
      cases hw
    rw [Entries.get?_set, if_neg hne]
    exact hw

lemma extends_withDefaults (d : Entries) (size : PyFloat) (hasRuntime : Bool) :
    Extends d (withDefaults d size hasRuntime) := by
  unfold withDefaults
  dsimp only
  iterate 13 refine Extends.trans ?_ (extends_setDefault _ _ _)
  exact extends_setDefault _ _ _

lemma extends_withTrail {d d' : Entries} {v : Json} (h : withTrail d v = .ok d') :
    ∃ x, jsonFloat v = .ok x ∧ Extends (d.set "trail_distance" (.float x)) d' := by
  simp only [withTrail] at h
  obtain ⟨x, hx, h⟩ := bind_eq_ok h
  obtain ⟨stop, -, h⟩ := bind_eq_ok h
  refine ⟨x, hx, ?_⟩
  split at h
  · cases h
    exact (extends_setDefault _ _ _).trans (extends_setDefault _ _ _)
  · cases h
    exact (extends_setDefault _ _ _).trans (extends_setDefault _ _ _)

/-- What `normalize_position` makes of a distance. -/
def trailJson (v w : Json) : Prop := v = .null ∧ w = .null ∨ ∃ x, jsonFloat v = .ok x ∧ w = .float x

/-- `normalize_position` keeps the fields of the row, overwritten by the runtime, but for the distance. -/
lemma normalizePosition_extends {position restored : Entries}
    (h : normalizePosition position = .ok restored) :
    ∃ fields, rowFields position (metadataOf position) = .ok fields ∧
      (∀ k v, k ≠ "trail_distance" →
        (fields.update ((runtimeOf (metadataOf position)).getD [])).get? k = some v →
          restored.get? k = some v) ∧
      ∀ v, (fields.update ((runtimeOf (metadataOf position)).getD [])).get? "trail_distance" = some v →
        ∃ w, restored.get? "trail_distance" = some w ∧ trailJson v w := by
  simp only [normalizePosition] at h
  obtain ⟨fields, hfields, h⟩ := bind_eq_ok h
  refine ⟨fields, hfields, ?_⟩
  generalize fields.update ((runtimeOf (metadataOf position)).getD []) = result at h ⊢
  by_cases htrail : (result.get? "trail_distance").getD
      (getOrNone (metadataOf position) "trail_distance") = .null
  · rw [if_pos htrail] at h
    obtain ⟨_, hsame, h⟩ := bind_eq_ok h
    cases hsame
    obtain ⟨size, -, h⟩ := bind_eq_ok h
    cases h
    have hkept := extends_withDefaults result size (runtimeOf (metadataOf position)).isSome
    refine ⟨fun k v _ hv => hkept k v hv, fun v hv => ⟨v, hkept _ v hv, .inl ?_⟩⟩
    rw [hv] at htrail
    exact ⟨htrail, htrail⟩
  · rw [if_neg htrail] at h
    obtain ⟨trailed, htrailed, h⟩ := bind_eq_ok h
    obtain ⟨size, -, h⟩ := bind_eq_ok h
    cases h
    obtain ⟨x, hx, hfloat⟩ := extends_withTrail htrailed
    have hkept := hfloat.trans
      (extends_withDefaults trailed size (runtimeOf (metadataOf position)).isSome)
    constructor
    · intro k v hk hv
      apply hkept
      rw [Entries.get?_set, if_neg hk]
      exact hv
    · intro v hv
      rw [hv, Option.getD_some] at hx
      refine ⟨.float x, ?_, .inr ⟨x, hx, rfl⟩⟩
      apply hkept
      rw [Entries.get?_set, if_pos rfl]

lemma jsonFloat_columnJson {x : Option PyFloat} {y : PyFloat} (h : jsonFloat (columnJson x) = .ok y) :
    x = some y := by
  cases x with
  | none => cases h
  | some x =>
    cases h
    rfl

lemma optionalFloat_columnJson (x : Option PyFloat) : optionalFloat (columnJson x) = .ok (columnJson x) := by
  cases x <;> rfl

/-- The fields of a published row. -/
lemma rowFields_published {row : PositionRow} {metadata fields : Entries}
    (h : rowFields (publishedPosition row).entries metadata = .ok fields) :
    ∃ entry qty, row.entryPrice = some entry ∧ row.qty = some qty ∧
      fields = [("position_id", .str row.positionId), ("alpha_id", .str row.alphaId),
        ("symbol", .str row.symbol), ("side", .str row.side.toUpper), ("entry", .float entry),
        ("entry_price", .float entry), ("qty", .float qty), ("tp", columnJson row.tp),
        ("sl", columnJson row.sl), ("leverage", .int (if row.leverage = 0 then 1 else row.leverage)),
        ("opened_at", .str row.openedAt),
        ("exchange", .str (if row.exchange = "" then "binance" else row.exchange)),
        ("metadata", .obj metadata)] := by
  simp only [rowFields] at h
  obtain ⟨id, hid, h⟩ := bind_eq_ok h
  obtain ⟨symbol, hsymbol, h⟩ := bind_eq_ok h
  obtain ⟨side, hside, h⟩ := bind_eq_ok h
  obtain ⟨entry, hentry, h⟩ := bind_eq_ok h
  obtain ⟨qty, hqty, h⟩ := bind_eq_ok h
  obtain ⟨tp, htp, h⟩ := bind_eq_ok h
  obtain ⟨sl, hsl, h⟩ := bind_eq_ok h
  obtain ⟨leverage, hleverage, h⟩ := bind_eq_ok h
  have hid : Json.str row.positionId = id := Except.ok.inj hid
  have hsymbol : Json.str row.symbol = symbol := Except.ok.inj hsymbol
  have hside : Json.str row.side = side := Except.ok.inj hside
  have hentry : jsonFloat (columnJson row.entryPrice) = .ok entry := hentry
  have hqty : jsonFloat (columnJson row.qty) = .ok qty := hqty
  have htp : optionalFloat (columnJson row.tp) = .ok tp := htp
  have hsl : optionalFloat (columnJson row.sl) = .ok sl := hsl
  have hleverage : leverage = if row.leverage = 0 then 1 else row.leverage := by
    have hint : (if (Json.int row.leverage).truthy then Json.int row.leverage
      else .int 1).toInt.mapError PyError.intOf = .ok leverage := hleverage
    by_cases hzero : row.leverage = 0
    · rw [if_pos hzero]
      rw [hzero] at hint
      exact (Except.ok.inj hint).symm
    · rw [if_neg hzero]
      rw [if_pos (by simpa [Json.truthy] using hzero)] at hint
      exact (Except.ok.inj hint).symm
  rw [optionalFloat_columnJson] at htp hsl
  cases htp
  cases hsl
  cases h
  refine ⟨entry, qty, jsonFloat_columnJson hentry, jsonFloat_columnJson hqty, ?_⟩
  rw [← hid, ← hsymbol, ← hside, hleverage]
  have hexchange : (if (Json.str row.exchange).truthy then Json.str row.exchange
      else .str "binance") = .str (if row.exchange = "" then "binance" else row.exchange) := by
    by_cases hempty : row.exchange = ""
    · rw [hempty]
      rfl
    · rw [if_pos (by simpa [Json.truthy] using hempty), if_neg hempty]
  rw [← hexchange]
  have hstr : ∀ text, strOf (.str text) = text := fun text => rfl
  simp only [hstr]
  rfl

/-- A restored position: what the last push has serialized, and the fields of the row. -/
structure Restored (row : PositionRow) (position restored : Entries) : Prop where
  /-- a scalar comes back as it was pushed, or as orjson writes it -/
  scalar : ∀ k v, position.get? k = some v → k ∉ workerOwned → isScalar v = true →
    k ≠ "trail_distance" → restored.get? k = some v ∨ restored.get? k = some (finite v)
  trail : ∀ v, position.get? "trail_distance" = some v → isScalar v = true →
    ∃ w, restored.get? "trail_distance" = some w ∧ (trailJson v w ∨ trailJson (finite v) w)
  positionId : restored.get? "position_id" = some (.str row.positionId)
  alphaId : restored.get? "alpha_id" = some (.str row.alphaId)
  symbol : restored.get? "symbol" = some (.str row.symbol)
  side : restored.get? "side" = some (.str row.side.toUpper)
  entry : ∃ entry, row.entryPrice = some entry ∧ restored.get? "entry" = some (.float entry) ∧
    restored.get? "entry_price" = some (.float entry)
  qty : ∃ qty, row.qty = some qty ∧ restored.get? "qty" = some (.float qty)
  tp : restored.get? "tp" = some (columnJson row.tp)
  sl : restored.get? "sl" = some (columnJson row.sl)
  leverage : restored.get? "leverage" =
    some (.int (if row.leverage = 0 then 1 else row.leverage))
  openedAt : restored.get? "opened_at" = some (.str row.openedAt)
  exchange : restored.get? "exchange" =
    some (.str (if row.exchange = "" then "binance" else row.exchange))

/-- A row whose runtime is what the last push has merged into it. -/
lemma restored_of_row {row : PositionRow} {position earlier runtime restored : Entries}
    (hearlier : OwnedFree earlier) (hposition : IsDict position)
    (hruntime : runtime = serializePositionRuntime position ∨
      runtime = finiteEntries (serializePositionRuntime position))
    (hrow : rowRuntime row = some (earlier.update runtime))
    (h : normalizePosition (publishedPosition row).entries = .ok restored) :
    Restored row position restored := by
  obtain ⟨fields, hfields, hkept, htrail⟩ := normalizePosition_extends h
  rw [runtimeOf_publishedPosition, hrow, Option.getD_some] at hkept htrail
  have hfree : OwnedFree runtime := by
    rcases hruntime with rfl | rfl
    · exact ownedFree_serialize hposition
    · exact (ownedFree_serialize hposition).finiteEntries
  have hall := hearlier.update hfree
  -- the keys that the last push has sent
  have hsent : ∀ k v, position.get? k = some v → k ∉ workerOwned → isScalar v = true →
      ∃ w, (w = v ∨ w = finite v) ∧ (fields.update (earlier.update runtime)).get? k = some w := by
    intro k v hv hk hscalar
    have hserialized : (serializePositionRuntime position).get? k = some v :=
      get?_filter _ hv (by simp [hk, hscalar]) hposition
    rcases hruntime with rfl | rfl
    · refine ⟨v, .inl rfl, ?_⟩
      rw [get?_update hall.isDict, get?_update hfree.isDict, hserialized]
      rfl
    · refine ⟨finite v, .inr rfl, ?_⟩
      rw [get?_update hall.isDict, get?_update hfree.isDict, get?_finiteEntries, hserialized]
      rfl
  -- the fields of the worker
  have howned : ∀ k ∈ workerOwned, ∀ v, fields.get? k = some v → restored.get? k = some v := by
    intro k hk v hv
    refine hkept k v ?_ ?_
    · rintro rfl
      exact absurd hk (by decide)
    · rw [Entries.get?_update_of_not_mem fields _ k (hall.free k hk)]
      exact hv
  obtain ⟨entry, qty, hentry, hqty, rfl⟩ := rowFields_published hfields
  constructor
  · intro k v hv hk hscalar hne
    obtain ⟨w, hw, hget⟩ := hsent k v hv hk hscalar
    rcases hw with rfl | rfl
    · exact .inl (hkept k _ hne hget)
    · exact .inr (hkept k _ hne hget)
  · intro v hv hscalar
    obtain ⟨w, hw, hget⟩ := hsent "trail_distance" v hv (by decide) hscalar
    obtain ⟨w', hw', htrailed⟩ := htrail w hget
    refine ⟨w', hw', ?_⟩
    rcases hw with rfl | rfl
    · exact .inl htrailed
    · exact .inr htrailed
  · exact howned "position_id" (by decide) _ rfl
  · exact howned "alpha_id" (by decide) _ rfl
  · exact howned "symbol" (by decide) _ rfl
  · exact howned "side" (by decide) _ rfl
  · exact ⟨entry, hentry, howned "entry" (by decide) _ rfl, howned "entry_price" (by decide) _ rfl⟩
  · exact ⟨qty, hqty, howned "qty" (by decide) _ rfl⟩
  · exact howned "tp" (by decide) _ rfl
  · exact howned "sl" (by decide) _ rfl
  · exact howned "leverage" (by decide) _ rfl
  · exact howned "opened_at" (by decide) _ rfl
  · exact howned "exchange" (by decide) _ rfl

/-! ## After a reconciliation -/

/-- A key that all rows give the same value has it. -/
lemma get?_collect {κ α ρ : Type} [DecidableEq κ] {f : ρ → Option (κ × α)} {rows : List ρ} {k : κ}
    {a : α} (hsame : ∀ r ∈ rows, ∀ v, f r = some (k, v) → v = a) {r : ρ} (hr : r ∈ rows)
    (hf : f r = some (k, a)) : (Dict.collect f rows).get? k = some a := by
  obtain ⟨p, hp, hkey⟩ := (Table.contains_iff _ k).mp
    ((Dict.contains_collect f rows k).mpr ⟨r, hr, a, hf⟩)
  obtain ⟨r', hr', hf'⟩ := Dict.mem_collect f hp
  obtain ⟨k', v⟩ := p
  obtain rfl : k' = k := hkey
  rw [Dict.get?_some_iff, ← hsame r' hr' v hf']
  exact hp

/-- A published row is listed under its id. -/
lemma authoritative_published {rows : List PositionRow} {row : PositionRow}
    (hunique : ∀ r ∈ rows, r.positionId = row.positionId → r = row) (hrow : row ∈ rows)
    (hname : row.positionId ≠ "") {s : PositionSnapshot}
    (hpositions : s.positions = rows.map publishedPosition) :
    (row.positionId, (publishedPosition row).entries) ∈ (authoritative s.entries).rows := by
  have hid : ∀ r : PositionRow, positionId? (publishedPosition r).entries =
      if r.positionId ≠ "" then some r.positionId else none := by
    intro r
    have hget : positionId? (publishedPosition r).entries =
        if (Json.str r.positionId).truthy then some r.positionId else none := rfl
    rw [hget]
    simp [Json.truthy]
  have hlisted : snapshotPositions s.entries = (rows.map publishedPosition).map fun p => .obj p.entries := by
    rw [← hpositions]
    rfl
  rw [← Dict.get?_some_iff]
  unfold authoritative
  rw [hlisted]
  refine get?_collect (r := .obj (publishedPosition row).entries) ?_ ?_ ?_
  · intro v hv entries hentries
    obtain ⟨p, hp, rfl⟩ := List.mem_map.mp hv
    obtain ⟨r, hr, rfl⟩ := List.mem_map.mp hp
    have hkey : (positionId? (publishedPosition r).entries).map (fun id => (id,
        (publishedPosition r).entries)) = some (row.positionId, entries) := hentries
    rw [hid] at hkey
    by_cases hempty : r.positionId ≠ ""
    · rw [if_pos hempty, Option.map_some, Option.some_inj, Prod.mk.injEq] at hkey
      rw [← hkey.2, hunique r hr hkey.1]
    · rw [if_neg hempty] at hkey
      cases hkey
  · exact List.mem_map_of_mem (List.mem_map_of_mem hrow)
  · show (positionId? (publishedPosition row).entries).map _ = _
    rw [hid, if_pos hname]
    rfl

namespace BaseEngine

/-- The rows that are restored under the symbol of `p` are `p`. -/
def AloneIn (listed : List (String × Entries)) (p : String × Entries) (symbol : String) : Prop :=
  ∀ q ∈ listed, ∀ restored, normalizePosition q.2 = .ok restored →
    ∀ v, restored.get? "symbol" = some v → strOf v = symbol → q = p

/-- A loop that goes through restores the first position and goes on. -/
lemma restoreListed_cons {stale : Bool} {p : String × Entries} {listed : List (String × Entries)}
    {e e' : BaseEngine} (h : restoreListed stale (p :: listed) e = (none, e')) :
    ∃ restored symbol, normalizePosition p.2 = .ok restored ∧
      restored.get? "symbol" = some symbol ∧ restoreListed stale listed
        { e with openPositions := e.openPositions.set (strOf symbol) restored } = (none, e') := by
  obtain ⟨id, raw⟩ := p
  unfold restoreListed restorePosition at h
  cases hnormalize : normalizePosition raw with
  | error err =>
    rw [hnormalize] at h
    cases h
  | ok restored =>
    rw [hnormalize] at h
    simp only [Except.map] at h
    cases hsymbol : restored.get? "symbol" with
    | none =>
      rw [hsymbol] at h
      cases h
    | some symbol =>
      rw [hsymbol] at h
      exact ⟨restored, symbol, rfl, hsymbol, h⟩

/-- A position stays when nothing else is restored under its symbol. -/
lemma get?_restoreListed {stale : Bool} {listed : List (String × Entries)} {e e' : BaseEngine}
    {symbol : String} {position : Entries} (h : restoreListed stale listed e = (none, e'))
    (hget : e.openPositions.get? symbol = some position)
    (hsame : ∀ q ∈ listed, ∀ restored, normalizePosition q.2 = .ok restored →
      ∀ v, restored.get? "symbol" = some v → strOf v = symbol → restored = position) :
    e'.openPositions.get? symbol = some position := by
  induction listed generalizing e with
  | nil =>
    cases h
    exact hget
  | cons q listed ih =>
    obtain ⟨restored, v, hnormalize, hsymbol, hrest⟩ := restoreListed_cons h
    apply ih hrest
    · show (e.openPositions.set (strOf v) restored).get? symbol = some position
      rw [Dict.get?_set]
      by_cases heq : symbol = strOf v
      · rw [if_pos heq, hsame q List.mem_cons_self restored hnormalize v hsymbol heq.symm]
      · rw [if_neg heq]
        exact hget
    · intro q' hq'
      exact hsame q' (List.mem_cons_of_mem _ hq')

/-- A loop that goes through has restored every listed position. -/
lemma restoreListed_all {stale : Bool} {listed : List (String × Entries)} {e e' : BaseEngine}
    (h : restoreListed stale listed e = (none, e')) {p : String × Entries} (hp : p ∈ listed) :
    ∃ restored symbol, normalizePosition p.2 = .ok restored ∧
      restored.get? "symbol" = some symbol ∧
      (AloneIn listed p (strOf symbol) → e'.openPositions.get? (strOf symbol) = some restored) := by
  induction listed generalizing e with
  | nil => cases hp
  | cons q listed ih =>
    obtain ⟨restored, v, hnormalize, hsymbol, hrest⟩ := restoreListed_cons h
    rcases List.mem_cons.mp hp with rfl | hp
    · refine ⟨restored, v, hnormalize, hsymbol, fun halone => get?_restoreListed hrest ?_ ?_⟩
      · show (e.openPositions.set (strOf v) restored).get? (strOf v) = some restored
        rw [Dict.get?_set, if_pos rfl]
      · intro q hq r hr w hw heq
        have hsame := halone q (List.mem_cons_of_mem _ hq) r hr w hw heq
        rw [hsame, hnormalize] at hr
        exact (Except.ok.inj hr).symm
    · obtain ⟨r, w, hr, hw, hget⟩ := ih hrest hp
      refine ⟨r, w, hr, hw, fun halone => hget fun q' hq' => ?_⟩
      exact halone q' (List.mem_cons_of_mem _ hq')

/-- The loop does not end a reconciliation with success. -/
lemma restoreListed_ne_true {stale : Bool} {listed : List (String × Entries)} {e e' : BaseEngine} :
    restoreListed stale listed e ≠ (some (.ok true), e') := by
  intro h
  induction listed generalizing e with
  | nil => cases h
  | cons p listed ih =>
    obtain ⟨id, raw⟩ := p
    unfold restoreListed restorePosition at h
    cases hnormalize : normalizePosition raw with
    | error err =>
      rw [hnormalize] at h
      cases h
    | ok restored =>
      rw [hnormalize] at h
      simp only [Except.map] at h
      cases hsymbol : restored.get? "symbol" with
      | none =>
        rw [hsymbol] at h
        cases h
      | some symbol =>
        rw [hsymbol] at h
        exact ih h

/-- A reconciliation that succeeds has restored every listed position. -/
lemma reconcilePositions_all {config : ReconcileConfig} {now : DateTime} {s : PositionSnapshot}
    {e e' : BaseEngine}
    (h : e.reconcilePositions config now (some (.json (.obj s.entries))) = (.ok true, e'))
    {p : String × Entries} (hp : p ∈ (authoritative s.entries).rows) :
    ∃ restored symbol, normalizePosition p.2 = .ok restored ∧
      restored.get? "symbol" = some symbol ∧
      (AloneIn (authoritative s.entries).rows p (strOf symbol) →
        e'.openPositions.get? (strOf symbol) = some restored) := by
  unfold reconcilePositions at h
  rw [parseSnapshot_entries] at h
  have hrevision : ((s.entries.get? "revision").getD (.int 0)).toInt = .ok (s.revision : ℤ) := rfl
  dsimp only at h
  rw [hrevision] at h
  have hnonempty : ¬ (authoritative s.entries).rows.isEmpty = true := by
    rw [List.isEmpty_iff]
    exact List.ne_nil_of_mem hp
  dsimp only at h
  rw [if_neg hnonempty] at h
  unfold reconcileListed at h
  dsimp only at h
  split at h
  · rename_i _ r e₁ hrestore
    obtain ⟨rfl, rfl⟩ := Prod.mk.inj h
    exact absurd hrestore restoreListed_ne_true
  · rename_i _ e₁ hrestore
    obtain ⟨-, rfl⟩ := Prod.mk.inj h
    exact restoreListed_all hrestore hp

end BaseEngine

/-! ## The round trip -/

/-- No other open position of the alpha is restored under the symbol of the row. -/
def AloneOn (t : Tables) (row : PositionRow) : Prop :=
  ∀ r ∈ allOpenPositions t row.alphaId, ∀ restored,
    normalizePosition (publishedPosition r).entries = .ok restored →
      ∀ v, restored.get? "symbol" = some v → strOf v = row.symbol → r = row

/-- The listed positions of a snapshot are rows of its alpha. -/
lemma exists_row_of_listed {t : Tables} {alphaId : String} {s : PositionSnapshot}
    (hpositions : s.positions = (allOpenPositions t alphaId).map publishedPosition)
    {p : String × Entries} (hp : p ∈ (authoritative s.entries).rows) :
    ∃ r ∈ allOpenPositions t alphaId, p = (r.positionId, (publishedPosition r).entries) := by
  obtain ⟨hmem, hid⟩ := BaseEngine.mem_authoritative hp
  obtain ⟨published, hpublished, heq⟩ := mem_snapshotPositions hmem
  rw [hpositions] at hpublished
  obtain ⟨r, hr, rfl⟩ := List.mem_map.mp hpublished
  refine ⟨r, hr, ?_⟩
  have hkey : positionId? (publishedPosition r).entries =
      if (Json.str r.positionId).truthy then some r.positionId else none := rfl
  rw [heq, hkey] at hid
  split at hid
  · obtain ⟨id, entries⟩ := p
    cases hid
    rw [← heq]
  · cases hid

/-- After any pushes for a position, the last of which sent `position`, a reconciliation with the published
snapshot restores the row of the position with what the last push has serialized. -/
theorem runtime_round_trip (executor : Executor) (json : JsonUtils) (hjson : json.Writes)
    (alphaId positionId : String) (config : ReconcileConfig) (now : DateTime) {s₀ s₁ s₂ : Tables}
    {p₀ : PositionRow} {position : Entries} (hp₀ : p₀ ∈ s₀.positions.rows)
    (hid : p₀.positionId = positionId) (hname : positionId ≠ "") (hfree : OwnedFreeRow p₀)
    (hrun : Relation.ReflTransGen (SomePush executor json alphaId positionId) s₀ s₁)
    (hlast : PushApplied executor json alphaId positionId position s₁ s₂) :
    ∃ row ∈ s₂.positions.rows, row.positionId = positionId ∧
      ∀ (s : PositionSnapshot) (e e' : BaseEngine),
        s.positions = (allOpenPositions s₂ row.alphaId).map publishedPosition →
        e.reconcilePositions config now (some (.json (.obj s.entries))) = (.ok true, e') →
        ∃ restored, restorePosition (publishedPosition row).entries = .ok (some restored) ∧
          Restored row position restored ∧
          (AloneOn s₂ row → e'.openPositions.get? row.symbol = some restored) := by
  obtain ⟨p, hp, hpid, hpfree⟩ := pushes_ownedFreeRow hjson hrun hp₀ hid hfree
  obtain ⟨row, hrow, hrowid, runtime, hruntime, hmerged⟩ := hlast.row hjson hp hpid
  refine ⟨row, hrow, hrowid, fun s e e' hpositions hreconcile => ?_⟩
  have hopen : row ∈ allOpenPositions s₂ row.alphaId := by
    refine (List.mergeSort_perm _ _).mem_iff.mpr (List.mem_filter.mpr ⟨hrow, ?_⟩)
    simp
  have hunique : ∀ r ∈ allOpenPositions s₂ row.alphaId, r.positionId = row.positionId → r = row :=
    fun r hr heq => s₂.positions.eq_of_key_eq (mem_allOpenPositions hr) hrow heq
  have hlisted := authoritative_published hunique hopen (hrowid ▸ hname) hpositions
  obtain ⟨restored, symbol, hnormalize, hsymbol, hget⟩ :=
    BaseEngine.reconcilePositions_all hreconcile hlisted
  have hrestored := restored_of_row hpfree.getD hlast.isDict hruntime hmerged hnormalize
  have hplace : strOf symbol = row.symbol := by
    rw [hrestored.symbol] at hsymbol
    cases hsymbol
    rfl
  refine ⟨restored, ?_, hrestored, fun halone => ?_⟩
  · unfold restorePosition
    rw [hnormalize]
    rfl
  · rw [← hplace]
    apply hget
    intro q hq r hr v hv heq
    obtain ⟨other, hother, rfl⟩ := exists_row_of_listed hpositions hq
    rw [halone other hother r hr v hv (heq.trans hplace)]

/-! ## A row without a leverage -/

/-- A position of leverage 0. -/
def unleveredRow : PositionRow where
  positionId := "p"
  alphaId := "a"
  signalId := "s0"
  symbol := "BTCUSDT"
  side := "LONG"
  entryPrice := some 100
  qty := some 2
  tp := none
  sl := none
  leverage := 0
  openedAt := "t0"
  metadata := .json (.obj [])
  exchange := "binance"
  feePct := none

def unleveredTables : Tables := { Tables.empty with positions := ⟨[unleveredRow], by simp⟩ }

/-- What the engine holds of it. -/
def unleveredPosition : Entries := [("position_id", .str "p"), ("tp_hits", .int 1)]

def unleveredEngine : BaseEngine := { openPositions := Dict.collect some [("BTCUSDT", unleveredPosition)] }

def unleveredModify : RawSignal :=
  { type := some "MODIFY", signalId := some "s1", positionId := some "p", timestamp := some "t1" }

/-- What is sent of it. -/
def unleveredSent : RawSignal :=
  { unleveredModify with
    alphaId := some "a"
    metadata := some (.json (.obj [("strategy_runtime_version", .int 1),
      ("strategy_runtime", .obj [("tp_hits", .int 1)])])) }

/-- The tables after that. -/
def unleveredDelivered : Tables :=
  deliver {} unleveredTables ⟨unleveredSent, { now := "t2", uuid := "u" }⟩

lemma unlevered_pushed :
    PushApplied {} .standard "a" "p" unleveredPosition unleveredTables unleveredDelivered where
  isDict := by
    unfold IsDict
    decide
  pushed := by
    have hheld : unleveredEngine.held (some "p") = some unleveredPosition := by decide +kernel
    have hsent : unleveredEngine.pushSignal .standard "a" unleveredModify = some unleveredSent := by
      unfold BaseEngine.pushSignal
      dsimp only
      rw [if_pos (by decide), show unleveredModify.positionId = some "p" from rfl, hheld]
      rfl
    have haccepted : Accepted {} unleveredTables ⟨unleveredSent, { now := "t2", uuid := "u" }⟩ := by
      unfold Accepted
      decide +kernel
    exact ⟨unleveredEngine, unleveredModify, unleveredSent, _, by decide, rfl, hheld, hsent, haccepted,
      fun h => absurd h (by decide), rfl⟩
  stays := by decide +kernel

/-- The position of leverage 0 comes back with leverage 1. -/
theorem leverage_not_kept :
    PushApplied {} .standard "a" "p" unleveredPosition unleveredTables unleveredDelivered ∧
      unleveredDelivered.positions.rows.map PositionRow.leverage = [0] ∧
      unleveredDelivered.positions.rows.map (fun row =>
        ((restorePosition (publishedPosition row).entries).toOption.bind id).bind fun restored =>
          restored.get? "leverage") = [some (.int 1)] := by
  refine ⟨unlevered_pushed, ?_, ?_⟩ <;> decide +kernel

/-- The other fields come back as they are. -/
theorem runtime_round_trip_unlevered :
    ∃ row ∈ unleveredDelivered.positions.rows, row.positionId = "p" ∧
      ∀ (s : PositionSnapshot) (e e' : BaseEngine),
        s.positions = (allOpenPositions unleveredDelivered row.alphaId).map publishedPosition →
        e.reconcilePositions {} ⟨0, some 0⟩ (some (.json (.obj s.entries))) = (.ok true, e') →
        ∃ restored, restorePosition (publishedPosition row).entries = .ok (some restored) ∧
          Restored row unleveredPosition restored ∧
          (AloneOn unleveredDelivered row → e'.openPositions.get? row.symbol = some restored) := by
  have hfree : OwnedFreeRow unleveredRow := by
    intro runtime hruntime
    have hnone : rowRuntime unleveredRow = none := by decide +kernel
    rw [hnone] at hruntime
    cases hruntime
  exact runtime_round_trip {} .standard JsonUtils.writes_standard "a" "p" {} ⟨0, some 0⟩
    (List.mem_singleton_self unleveredRow) rfl (by decide) hfree .refl unlevered_pushed

end PaperTrade.Base
