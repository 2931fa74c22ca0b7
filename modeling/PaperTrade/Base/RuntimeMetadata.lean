import PaperTrade.Base.Reconcile
import PaperTrade.Worker.Rows

/-!
# The runtime of a strategy in the metadata of its position

`BaseEngine.push_signal` writes what the engine remembers of a position under `strategy_runtime`, the
worker merges it into the row, and `normalize_position` reads it back from the published row.

`deliver_runtime` says what one message makes of the `strategy_runtime` of a row.
-/

namespace PaperTrade.Base

open PaperTrade.Runtime PaperTrade.Worker

/-! ## Entries -/

lemma mem_set {d : Entries} {k : String} {v : Json} {p : String × Json} (h : p ∈ d.set k v) :
    p = (k, v) ∨ p ∈ d := by
  induction d with
  | nil => exact .inl (List.mem_singleton.mp h)
  | cons q d ih =>
    obtain ⟨k', v'⟩ := q
    unfold Entries.set at h
    by_cases heq : k' = k
    · rw [if_pos heq] at h
      exact (List.mem_cons.mp h).imp_right (List.mem_cons_of_mem _)
    · rw [if_neg heq] at h
      rcases List.mem_cons.mp h with rfl | h
      · exact .inr (List.mem_cons_self ..)
      · exact (ih h).imp_right (List.mem_cons_of_mem _)

lemma mem_update {d e : Entries} {p : String × Json} (h : p ∈ d.update e) : p ∈ d ∨ p ∈ e := by
  induction e generalizing d with
  | nil => exact .inl h
  | cons q e ih =>
    rcases ih h with h | h
    · rcases mem_set h with rfl | h
      · exact .inr (List.mem_cons_self ..)
      · exact .inl h
    · exact .inr (List.mem_cons_of_mem _ h)

lemma get?_eq_none {d : Entries} {k : String} : d.get? k = none ↔ ∀ v, (k, v) ∉ d := by
  induction d with
  | nil => exact iff_of_true rfl fun v => List.not_mem_nil
  | cons p d ih =>
    obtain ⟨k', v'⟩ := p
    unfold Entries.get?
    by_cases heq : k' = k
    · rw [if_pos heq]
      refine iff_of_false (by simp) fun h => ?_
      exact h v' (heq ▸ List.mem_cons_self ..)
    · rw [if_neg heq, ih]
      refine forall_congr' fun v => not_congr ?_
      constructor
      · exact List.mem_cons_of_mem _
      · intro h
        rcases List.mem_cons.mp h with h | h
        · exact absurd (Prod.mk.inj h).1.symm heq
        · exact h

lemma mem_of_get? {d : Entries} {k : String} {v : Json} (h : d.get? k = some v) : (k, v) ∈ d := by
  induction d with
  | nil => cases h
  | cons p d ih =>
    obtain ⟨k', v'⟩ := p
    unfold Entries.get? at h
    by_cases heq : k' = k
    · rw [if_pos heq] at h
      cases h
      rw [heq]
      exact List.mem_cons_self ..
    · rw [if_neg heq] at h
      exact List.mem_cons_of_mem _ (ih h)

/-- An `update` has the keys that it is given. -/
lemma get?_update_of_ne_none {d e : Entries} {k : String} (h : e.get? k ≠ none) :
    (d.update e).get? k ≠ none := by
  induction e generalizing d with
  | nil => exact absurd rfl h
  | cons p e ih =>
    obtain ⟨k', v'⟩ := p
    by_cases hrest : Entries.get? e k = none
    · have hk : k' = k := by
        by_contra hne
        unfold Entries.get? at h
        rw [if_neg hne] at h
        exact h hrest
      rw [Entries.update, List.foldl_cons, ← Entries.update,
        Entries.get?_update_of_not_mem _ _ _ (get?_eq_none.mp hrest), hk, Entries.get?_set, if_pos rfl]
      simp
    · exact ih hrest

/-- An `update` takes a key that is there from what it is given. -/
lemma mem_of_get?_update {d e : Entries} {k : String} {v : Json} (h : (d.update e).get? k = some v)
    (hk : e.get? k ≠ none) : (k, v) ∈ e := by
  induction e generalizing d with
  | nil => exact absurd rfl hk
  | cons p e ih =>
    by_cases hrest : Entries.get? e k = none
    · rw [Entries.update, List.foldl_cons, ← Entries.update,
        Entries.get?_update_of_not_mem _ _ _ (get?_eq_none.mp hrest), Entries.get?_set] at h
      by_cases heq : k = p.1
      · rw [if_pos heq] at h
        cases h
        rw [heq]
        exact List.mem_cons_self ..
      · exfalso
        obtain ⟨k', v'⟩ := p
        unfold Entries.get? at hk
        rw [if_neg (Ne.symm heq)] at hk
        exact hk hrest
    · exact List.mem_cons_of_mem _ (ih h hrest)

lemma loadDict_json (d : Entries) : loadDict (.json (.obj d)) = d := rfl

lemma get?_mergeMetadata {raw : Text} {extra : Entries} {k : String} (hk : ∀ v, (k, v) ∉ extra) :
    (loadDict (mergeMetadata raw extra)).get? k = (loadDict raw).get? k :=
  Entries.get?_update_of_not_mem _ _ _ hk

/-! ## What the worker does with a `strategy_runtime` -/

/-- The `strategy_runtime` in the metadata of a row. -/
def rowRuntime (row : PositionRow) : Option Entries := runtimeOf (loadDict row.metadata)

lemma runtimeOf_publishedPosition (row : PositionRow) :
    runtimeOf (metadataOf (publishedPosition row).entries) = rowRuntime row := by
  have hmetadata : metadataOf (publishedPosition row).entries =
      (publishedMetadata row.metadata).entries?.getD [] := rfl
  rw [hmetadata, rowRuntime]
  unfold publishedMetadata loadDict
  cases row.metadata.loadsOrEmpty with
  | none => rfl
  | some v => cases v <;> rfl

lemma runtimeOf_congr {d d' : Entries} (h : d.get? "strategy_runtime" = d'.get? "strategy_runtime") :
    runtimeOf d = runtimeOf d' := by
  unfold runtimeOf
  rw [h]

/-- The merged `strategy_runtime`. -/
lemma runtimeOf_merge {current update merged : Text}
    (h : mergePositionRuntimeMetadata current update = .ok merged) :
    (runtimeOf (loadDict update) = none ∧
      runtimeOf (loadDict merged) = runtimeOf (loadDict current)) ∨
    ∃ runtime, runtimeOf (loadDict update) = some runtime ∧ runtimeOf (loadDict merged) =
      some (((runtimeOf (loadDict current)).getD []).update runtime) := by
  unfold mergePositionRuntimeMetadata at h
  dsimp only at h
  cases hupdate : (loadDict update).get? "strategy_runtime" with
  | none =>
    rw [hupdate] at h
    cases h
    refine .inl ⟨?_, rfl⟩
    rw [runtimeOf, hupdate]
    rfl
  | some v =>
    rw [hupdate] at h
    cases v with
    | obj runtime =>
      refine .inr ⟨runtime, by rw [runtimeOf, hupdate]; rfl, ?_⟩
      have hcurrent : runtimeOf (loadDict current) =
          ((loadDict current).get? "strategy_runtime").bind Json.entries? := rfl
      rw [hcurrent]
      generalize (loadDict current).get? "strategy_runtime" = existing at h ⊢
      dsimp only at h
      split at h
      · cases h
        rw [loadDict_json, runtimeOf, Entries.get?_set, if_neg (by decide), Entries.get?_set, if_pos rfl]
        cases existing with
        | none => rfl
        | some w => cases w <;> rfl
      · cases h
    | _ =>
      cases h
      refine .inl ⟨?_, rfl⟩
      rw [runtimeOf, hupdate]
      rfl

/-! ## What a message does -/

/-- The fields of a message that decide about the metadata of a position. -/
lemma modify_fields {data : RawSignal} {signal : ModifySignal}
    (h : parseSignal data = .ok (.modify signal)) :
    signal.positionId = data.positionId.getD "" ∧
      signal.metadata = data.metadata.getD (.chars "{}") := by
  simp only [parseSignal] at h
  split at h
  · cases h
  · cases hp : parseOpen data <;> simp [hp, Except.map] at h
  · cases hp : parseModify data with
    | error e => simp [hp, Except.map] at h
    | ok s =>
      have heq : s = signal := by simpa [hp, Except.map] using h
      subst heq
      simp only [parseModify] at hp
      obtain ⟨_, -, hp⟩ := bind_eq_ok hp
      obtain ⟨_, -, hp⟩ := bind_eq_ok hp
      obtain ⟨_, -, hp⟩ := bind_eq_ok hp
      obtain ⟨_, -, hp⟩ := bind_eq_ok hp
      cases hp
      exact ⟨rfl, rfl⟩
  · cases hp : parseClose data <;> simp [hp, Except.map] at h
  · cases hp : parseRegisterColumns data <;> simp [hp, Except.map] at h

lemma close_fields {data : RawSignal} {signal : CloseSignal}
    (h : parseSignal data = .ok (.close signal)) :
    signal.positionId = data.positionId.getD "" ∧
      signal.metadata = data.metadata.getD (.chars "{}") := by
  have hp := parseClose_of_parseSignal h
  simp only [parseClose] at hp
  obtain ⟨_, -, hp⟩ := bind_eq_ok hp
  obtain ⟨_, -, hp⟩ := bind_eq_ok hp
  obtain ⟨_, -, hp⟩ := bind_eq_ok hp
  obtain ⟨_, -, hp⟩ := bind_eq_ok hp
  cases hp
  exact ⟨rfl, rfl⟩

lemma open_fields {data : RawSignal} {signal : OpenSignal}
    (h : parseSignal data = .ok (.open signal)) :
    signal.positionId = data.positionId.getD "" ∧ data.symbol = some signal.symbol ∧
      signal.metadata = data.metadata.getD (.chars "{}") := by
  have hp := parseOpen_of_parseSignal h
  simp only [parseOpen] at hp
  obtain ⟨symbol, hsymbol, hp⟩ := bind_eq_ok hp
  obtain ⟨_, -, hp⟩ := bind_eq_ok hp
  obtain ⟨_, -, hp⟩ := bind_eq_ok hp
  obtain ⟨_, -, hp⟩ := bind_eq_ok hp
  obtain ⟨_, -, hp⟩ := bind_eq_ok hp
  obtain ⟨_, -, hp⟩ := bind_eq_ok hp
  obtain ⟨_, -, hp⟩ := bind_eq_ok hp
  obtain ⟨_, -, hp⟩ := bind_eq_ok hp
  obtain ⟨_, -, hp⟩ := bind_eq_ok hp
  obtain ⟨_, -, hp⟩ := bind_eq_ok hp
  cases hp
  refine ⟨rfl, ?_, rfl⟩
  unfold required at hsymbol
  cases hd : data.symbol with
  | none => rw [hd] at hsymbol; cases hsymbol
  | some s => rw [hd] at hsymbol; cases hsymbol; rfl

/-- The type of a message that is read as a signal. -/
def typeName : Signal → String
  | .open _ => "OPEN"
  | .modify _ => "MODIFY"
  | .close _ => "CLOSE"
  | .registerColumns _ => "REGISTER_COLUMNS"

lemma exists_of_map {α β : Type} {r : Except PyError α} {f : α → β} {b : β}
    (h : r.map f = .ok b) : ∃ a, b = f a := by
  cases r with
  | error e => cases h
  | ok a => exact ⟨a, (Except.ok.inj h).symm⟩

lemma type_of_parse {data : RawSignal} {signal : Signal} (h : parseSignal data = .ok signal) :
    data.type = some (typeName signal) := by
  have hname : data.type.getD "" = typeName signal := by
    unfold parseSignal at h
    generalize data.type.getD "" = name at h ⊢
    unfold SignalType.ofString? at h
    split at h
    · cases h
    all_goals
      obtain ⟨parsed, rfl⟩ := exists_of_map h
      rename_i htype
      split at htype <;> first | rfl | cases htype
  cases htype : data.type with
  | none =>
    rw [htype] at hname
    cases signal <;> exact absurd hname (by simp [typeName])
  | some name =>
    rw [htype] at hname
    exact congrArg some hname

/-- The `strategy_runtime` that a message carries. -/
def messageRuntime (data : RawSignal) : Option Entries :=
  runtimeOf (loadDict (data.metadata.getD (.chars "{}")))

/-- A row of `positions` after a message, as to its id, its symbol and its `strategy_runtime`. -/
inductive RuntimeOrigin (m : Delivery) (s : Tables) (p' : PositionRow) : Prop
  | kept {p} (hp : p ∈ s.positions.rows) (hid : p'.positionId = p.positionId)
      (hsymbol : p'.symbol = p.symbol) (hruntime : rowRuntime p' = rowRuntime p)
  | opened (htype : m.data.type = some "OPEN")
      (hid : p'.positionId = if m.data.positionId.getD "" = "" then m.env.uuid
        else m.data.positionId.getD "")
      (hsymbol : m.data.symbol = some p'.symbol) (hruntime : rowRuntime p' = messageRuntime m.data)
  | merged {p runtime} (htype : m.data.type ∈ [some "MODIFY", some "CLOSE"])
      (hp : p ∈ s.positions.rows) (hid : p'.positionId = p.positionId)
      (hnames : p.positionId = m.data.positionId.getD "")
      (hsymbol : p'.symbol = p.symbol) (hmessage : messageRuntime m.data = some runtime)
      (hruntime : rowRuntime p' = some (((rowRuntime p).getD []).update runtime))

section Origin

variable {self : Executor} {m : Delivery} {s s' : Tables} {p p' : PositionRow}

/-- A merge into the metadata of a row. -/
lemma RuntimeOrigin.of_merge {update merged : Text}
    (htype : m.data.type ∈ [some "MODIFY", some "CLOSE"]) (hp : p ∈ s.positions.rows)
    (hid : p'.positionId = p.positionId) (hnames : p.positionId = m.data.positionId.getD "")
    (hsymbol : p'.symbol = p.symbol) (hmetadata : p'.metadata = merged)
    (hupdate : runtimeOf (loadDict update) = messageRuntime m.data)
    (hmerge : mergePositionRuntimeMetadata p.metadata update = .ok merged) : RuntimeOrigin m s p' := by
  rcases runtimeOf_merge hmerge with ⟨-, hsame⟩ | ⟨runtime, hruntime, hmerged⟩
  · refine .kept hp hid hsymbol ?_
    rw [rowRuntime, hmetadata, hsame]
    rfl
  · refine .merged htype hp hid hnames hsymbol (hupdate.symm.trans hruntime) ?_
    rw [rowRuntime, hmetadata, hmerged]
    rfl

lemma not_mem_executionMetadata (fill : FillPrice) {k : String} (hk : k ≠ "execution") (v : Json) :
    (k, v) ∉ fill.executionMetadata := by
  intro h
  cases fill with
  | plain x => cases h
  | resolved r => exact hk (Prod.mk.inj (List.mem_singleton.mp h)).1

/-- The metadata that a CLOSE hands on has the `strategy_runtime` of the message. -/
lemma runtimeOf_closeMetadata {signal : CloseSignal} {fill : Option FillPrice}
    {exit : Option PyFloat} {execution : Entries}
    (hfill : self.closeFill signal p fill = .ok (exit, execution)) :
    runtimeOf (loadDict (Executor.closeMetadata signal p exit execution)) =
      runtimeOf (loadDict signal.metadata) := by
  have hexecution : ∀ v, ("strategy_runtime", v) ∉ execution := by
    unfold Executor.closeFill at hfill
    split at hfill
    · cases hfill
      exact not_mem_executionMetadata _ (by decide)
    · split at hfill
      · cases hfill
        exact fun v => List.not_mem_nil
      · obtain ⟨_, -, hfill⟩ := bind_eq_ok hfill
        cases hfill
        exact fun v => List.not_mem_nil
  refine runtimeOf_congr (get?_mergeMetadata fun v hv => ?_)
  rcases List.mem_append.mp hv with hv | hv
  · simp at hv
  · exact hexecution v hv

lemma closePosition_runtime {signal : CloseSignal} {row : SignalRow} {env : Env}
    {fill : Option FillPrice} {exit : Option PyFloat} {execution : Entries} {q : PyFloat}
    {r : Except PyError Unit}
    (hparse : parseSignal m.data = .ok (.close signal))
    (hfill : self.closeFill signal p fill = .ok (exit, execution))
    (h : ClosePosition (s.log row) (closeArgs env signal p exit execution q) r s')
    (hp' : p' ∈ s'.positions.rows) : RuntimeOrigin m s p' := by
  have hkept : p' ∈ s.positions.rows → RuntimeOrigin m s p' := fun hp => .kept hp rfl rfl rfl
  cases h with
  | full _ _ _ _ => exact hkept ((s.positions.mem_erase _ _).mp hp').1
  | partly hsettles _ _ _ hmerge =>
    rcases mem_reduce.mp hp' with ⟨hp, -⟩ | ⟨p₀, hp₀, hkey, hrow⟩
    · exact hkept hp
    · -- the row that is reduced is the one the close was settled for
      have hfound := (s.positions.find?_some_iff _ _).mp hsettles.found
      have hsame := s.positions.eq_of_key_eq hfound.1 hp₀ (hfound.2.trans hkey.symm)
      subst hsame
      have hfields := close_fields hparse
      have htype := type_of_parse hparse
      refine .of_merge (by rw [htype]; simp [typeName]) hp₀ (by rw [hrow]; rfl) ?_ (by rw [hrow]; rfl) (by rw [hrow]; rfl) ?_ hmerge
      · exact hkey.trans hfields.1
      · rw [messageRuntime, ← hfields.2]
        exact runtimeOf_closeMetadata hfill
  | missing _ => exact hkept hp'
  | unpriced _ _ => exact hkept hp'
  | nothing _ _ _ => exact hkept hp'
  | unsettled _ _ _ _ _ => exact hkept hp'
  | taken _ _ => exact hkept hp'
  | stuck _ _ _ _ _ => exact hkept hp'

lemma handle_runtime {signal : Signal} {r : Except PyError Outcome}
    (hparse : parseSignal m.data = .ok signal)
    (h : Handle self m.env (s.log (logRow m.env m.data)) signal (fillAt m.env s signal) r s')
    (hp' : p' ∈ s'.positions.rows) : RuntimeOrigin m s p' := by
  have hkept : p' ∈ s.positions.rows → RuntimeOrigin m s p' := fun hp => .kept hp rfl rfl rfl
  cases signal with
  | «open» signal =>
    cases h with
    | blocked _ => exact hkept hp'
    | leverage _ _ => exact hkept hp'
    | taken _ _ _ => exact hkept hp'
    | opened _ _ _ hrows =>
      rw [hrows, List.mem_append, List.mem_singleton] at hp'
      rcases hp' with hp' | rfl
      · exact hkept hp'
      · have hfields := open_fields hparse
        refine .opened (type_of_parse hparse) (by rw [← hfields.1]; rfl) hfields.2.1 ?_
        rw [messageRuntime, ← hfields.2.2]
        refine runtimeOf_congr (get?_mergeMetadata fun v hv => ?_)
        rcases List.mem_append.mp hv with hv | hv
        · simp at hv
        · exact not_mem_executionMetadata _ (by decide) v hv
  | modify signal =>
    cases h with
    | missing _ => exact hkept hp'
    | stop _ _ => exact hkept hp'
    | unmerged _ _ _ => exact hkept hp'
    | modified hfind _ hmerge =>
      rcases (mem_modified _ signal).mp hp' with ⟨hp, -⟩ | ⟨p, hp, hkey, hrow⟩
      · exact hkept hp
      · obtain ⟨hpos, hposid⟩ := (s.positions.find?_some_iff _ _).mp hfind
        have hsame := s.positions.eq_of_key_eq hpos hp (hposid.trans hkey.symm)
        rw [hsame] at hmerge
        have hfields := modify_fields hparse
        unfold mergedMetadata at hmerge
        split at hmerge
        · cases hmerge
          rw [hrow]
          exact .kept hp rfl rfl rfl
        · cases hmerged : mergePositionRuntimeMetadata p.metadata signal.metadata with
          | error e =>
            rw [hmerged] at hmerge
            cases hmerge
          | ok text =>
            rw [hmerged] at hmerge
            cases hmerge
            have htype := type_of_parse hparse
            refine .of_merge (by rw [htype]; simp [typeName]) hp (by rw [hrow]; rfl)
              (hkey.trans hfields.1) (by rw [hrow]; rfl) (by rw [hrow]; rfl) ?_ hmerged
            rw [messageRuntime, ← hfields.2]
  | close signal =>
    cases h with
    | missing _ => exact hkept hp'
    | refused _ _ => exact hkept hp'
    | unfilled _ _ _ => exact hkept hp'
    | failed _ _ hfill hclose => exact closePosition_runtime hparse hfill hclose hp'
    | closed _ _ _ hfill hclose => exact closePosition_runtime hparse hfill hclose hp'
  | registerColumns signal =>
    cases h with
    | invalid _ => exact hkept hp'
    | notArray _ _ => exact hkept hp'
    | failed _ hinsert =>
      rw [hinsert.positions] at hp'
      exact hkept hp'
    | registered _ hinsert =>
      rw [hinsert.positions] at hp'
      exact hkept hp'

end Origin

/-- What a message makes of the rows. -/
theorem deliver_runtime (self : Executor) (m : Delivery) (s : Tables) {p' : PositionRow}
    (hp' : p' ∈ (deliver self s m).positions.rows) : RuntimeOrigin m s p' := by
  have hd := deliver_cases self m s
  generalize deliver self s m = s', reply self s m = r at hd hp'
  cases hd with
  | duplicate _ => exact .kept hp' rfl rfl rfl
  | unparsable _ _ => exact .kept hp' rfl rfl rfl
  | rejected _ hparse h => exact handle_runtime hparse h hp'
  | accepted _ hparse h => exact handle_runtime hparse h hp'

end PaperTrade.Base
