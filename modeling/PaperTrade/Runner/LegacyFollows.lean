import PaperTrade.Runner.LegacyBook
import PaperTrade.Runner.SupertrendFollows

/-!
# The book of an old engine and the stream

The engine has changed its book before the adapter dispatches what it pushed, and nothing takes a change
back. Book and stream agree after a scan in which the flush appends every OPEN and every full CLOSE.

What is pending counts as if it were appended already: `Agrees` relates the book to the open ids through
the queue, an action of the engine keeps it, and so does a flush that appends what counts.
-/

namespace PaperTrade.Runner

open PaperTrade.Runtime Dispatcher

/-! ## Enriched fields -/

/-- The fields that `_enrich_signal_fields` may add. -/
def enrichedKeys : List String :=
  ["symbol", "tf", "side", "entry", "signal_candle_open_ms", "exchange", "fee_pct"]

/-- `d'` is `d` with some of the enriched fields behind it. -/
structure Enriched (d d' : Entries) : Prop where
  added : ∃ extra, d' = d ++ extra ∧ ∀ p ∈ extra, p.1 ∈ enrichedKeys
  nodup : (d.map Prod.fst).Nodup → (d'.map Prod.fst).Nodup

lemma Enriched.refl (d : Entries) : Enriched d d :=
  ⟨⟨[], (List.append_nil d).symm, fun p hp => absurd hp List.not_mem_nil⟩, id⟩

lemma Enriched.trans {d d' d'' : Entries} (h : Enriched d d') (h' : Enriched d' d'') :
    Enriched d d'' := by
  obtain ⟨extra, heq, hkeys⟩ := h.added
  obtain ⟨extra', heq', hkeys'⟩ := h'.added
  refine ⟨⟨extra ++ extra', ?_, ?_⟩, fun hd => h'.nodup (h.nodup hd)⟩
  · rw [heq', heq, List.append_assoc]
  · intro p hp
    exact (List.mem_append.mp hp).elim (hkeys p) (hkeys' p)

lemma not_mem_of_get?_none {d : Entries} {k : String} (h : d.get? k = none) :
    ∀ p ∈ d, p.1 ≠ k := by
  induction d with
  | nil => exact fun p hp => absurd hp List.not_mem_nil
  | cons p d ih =>
    obtain ⟨k', v⟩ := p
    rw [Entries.get?] at h
    split at h
    · cases h
    · rename_i hne
      exact List.forall_mem_cons.mpr ⟨hne, ih h⟩

lemma set_of_get?_none {d : Entries} {k : String} (h : d.get? k = none) (v : Json) :
    Entries.set d k v = d ++ [(k, v)] := by
  induction d with
  | nil => rfl
  | cons p d ih =>
    obtain ⟨k', v'⟩ := p
    rw [Entries.get?] at h
    split at h
    · cases h
    · rename_i hne
      rw [Entries.set, if_neg hne, ih h]
      rfl

lemma enriched_set {d : Entries} {k : String} (hk : k ∈ enrichedKeys) (h : d.get? k = none) (v : Json) :
    Enriched d (Entries.set d k v) := by
  rw [set_of_get?_none h]
  refine ⟨⟨[(k, v)], rfl, fun p hp => ?_⟩, fun hd => ?_⟩
  · rw [List.mem_singleton.mp hp]
    exact hk
  · rw [List.map_append, List.nodup_append]
    refine ⟨hd, List.nodup_singleton _, fun a ha b hb => ?_⟩
    obtain ⟨p, hp, rfl⟩ := List.mem_map.mp ha
    rw [List.mem_singleton.mp hb]
    exact not_mem_of_get?_none h p hp

lemma enriched_setDefault (d : Entries) {k : String} (hk : k ∈ enrichedKeys) (v : Json) :
    Enriched d (setDefault d k v) := by
  unfold setDefault
  split
  · exact .refl d
  · rename_i h
    exact enriched_set hk h v

namespace LegacyStandalone

variable {x : LegacyStandalone} {digest : Logical → String} {uuid4 : ℕ → String}
  {env : ℕ → DispatchEnv}

lemma enriched_enrichSignalFields (engine : Engine) (fields : Entries) :
    Enriched fields (x.enrichSignalFields engine fields) := by
  have hsymbol : ∀ symbol : String, Enriched fields (setDefault (setDefault fields "symbol"
      (.str symbol)) "tf" (.str x.primaryTf)) := fun symbol =>
    (enriched_setDefault fields (k := "symbol") (by decide) _).trans
      (enriched_setDefault _ (by decide) _)
  -- the fields that the position of the signal fills in
  have hside : ∀ d pos, Enriched fields d → Enriched fields (setDefault (setDefault (setDefault d
      "side" (getOrNone pos "side")) "entry" (getOrNone pos "entry")) "signal_candle_open_ms"
      (getOrNone pos "entry_candle_open_ms")) := by
    intro d pos hd
    have hside := hd.trans (enriched_setDefault _ (k := "side") (by decide) (getOrNone pos "side"))
    have hentry := hside.trans (enriched_setDefault _ (k := "entry") (by decide)
      (getOrNone pos "entry"))
    exact hentry.trans (enriched_setDefault _ (by decide) _)
  unfold enrichSignalFields
  dsimp only
  rcases positionOf engine (strOrEmpty (getOrNone fields "position_id")).spell with
    - | ⟨symbol, - | ⟨p, ps⟩⟩
  on_goal 1 => have hd := enriched_setDefault fields (k := "tf") (by decide) (.str x.primaryTf)
  on_goal 2 => have hd := hsymbol symbol
  on_goal 3 => have hd := hside _ (p :: ps) (hsymbol symbol)
  -- the exchange and the fee are added the same way to each of them
  all_goals
    dsimp only
    split
    · rename_i hfee _
      refine Enriched.trans ?_ (enriched_set (by decide) hfee _)
      split
      · exact hd
      · rename_i hexchange
        exact hd.trans (enriched_set (by decide) hexchange _)
    · split
      · exact hd
      · rename_i hexchange
        exact hd.trans (enriched_set (by decide) hexchange _)

/-! ## Captured signals -/

/-- The call is an OPEN or a full CLOSE. -/
def Counts (c : Call) : Prop :=
  c.type = "OPEN" ∨ (c.type = "CLOSE" ∧ ∀ p ∈ c.fields, p.1 ≠ "qty")

instance (c : Call) : Decidable (Counts c) := inferInstanceAs (Decidable (_ ∨ _))

/-- A call that does not count changes nothing for a reader of the stream. -/
def Regular (c : Call) : Prop := ¬ Counts c → ∀ ids, c.note ids = ids

/-- The call of a captured signal. -/
def callFor (x : LegacyStandalone) (engine : Engine) (type : String) (fields : Entries) : Call :=
  x.callOf (x.captured engine type fields)

lemma plain_callFor (engine : Engine) (type : String) {fields : Entries} {pid : String}
    (hnodup : (fields.map Prod.fst).Nodup) (htype : ∀ p ∈ fields, p.1 ≠ "type")
    (hpid : ("position_id", .str pid) ∈ fields) : (x.callFor engine type fields).Plain pid := by
  have henriched := enriched_enrichSignalFields (x := x) engine fields
  obtain ⟨extra, heq, hkeys⟩ := henriched.added
  have hfields : (x.callFor engine type fields).fields = fields ++ extra := heq
  refine ⟨henriched.nodup hnodup, ?_, ?_⟩
  · intro p hp
    rw [hfields] at hp
    rcases List.mem_append.mp hp with hp | hp
    · exact htype p hp
    · intro hk
      have hmem := hkeys p hp
      rw [hk] at hmem
      exact absurd hmem (by decide)
  · rw [hfields]
    exact List.mem_append_left _ hpid

lemma noQty_callFor (engine : Engine) (type : String) {fields : Entries}
    (h : ∀ p ∈ fields, p.1 ≠ "qty") : ∀ p ∈ (x.callFor engine type fields).fields, p.1 ≠ "qty" := by
  obtain ⟨extra, heq, hkeys⟩ := (enriched_enrichSignalFields (x := x) engine fields).added
  have hfields : (x.callFor engine type fields).fields = fields ++ extra := heq
  intro p hp
  rw [hfields] at hp
  rcases List.mem_append.mp hp with hp | hp
  · exact h p hp
  · intro hk
    have hmem := hkeys p hp
    rw [hk] at hmem
    exact absurd hmem (by decide)

/-! ## The book and the queue -/

/-- The ids of the book of an engine. -/
def engineIds (engine : Engine) : List Text :=
  engine.openPositions.map fun e => .chars (idOf e.2)

variable (x) in
/-- The ids that are open once the queue is appended. -/
def noteQueue (ids : List Text) (queue : List Captured) : List Text :=
  queue.foldl (fun ids s => (x.callOf s).note ids) ids

variable (x uuid4) in
/-- The book has the ids that are open once the pending signals are appended; its symbols and ids are
all different, and no id that is still to be drawn is among them. -/
structure Agrees (loaded : List Text) (n : ℕ) (s : LegacyState) : Prop where
  grown : n ≤ s.outbox.dispatcher.stream.length
  ids : SameIds (engineIds s.engine) (x.noteQueue (s.outbox.openIds loaded n) s.pending)
  symbols : (s.engine.openPositions.map Prod.fst).Nodup
  distinct : (engineIds s.engine).Nodup
  fresh : ∀ m, s.drawn ≤ m → Text.chars (uuid4 m) ∉ engineIds s.engine
  regular : ∀ c ∈ s.pending, Regular (x.callOf c)

lemma idOf_cons (pid : String) (position : Entries) :
    idOf (("position_id", .str pid) :: position) = pid := rfl

lemma heldAt_some {engine : Engine} {symbol : String} {e : String × Entries}
    (h : heldAt engine symbol = some e) : e ∈ engine.openPositions ∧ e.1 = symbol :=
  ⟨List.mem_of_find?_eq_some h, of_decide_eq_true (List.find?_some h :)⟩

lemma heldAt_none {engine : Engine} {symbol : String} (h : heldAt engine symbol = none) :
    symbol ∉ engine.openPositions.map Prod.fst := by
  intro hmem
  obtain ⟨e, he, rfl⟩ := List.mem_map.mp hmem
  exact absurd (List.find?_eq_none.mp h e he) (by simp)

/-- The fields of a signal of a position. -/
lemma plain_fields (engine : Engine) (type : String) (pid : String) (fields : SignalFields) :
    (x.callFor engine type (("position_id", .str pid) :: fields.entries)).Plain pid := by
  refine plain_callFor engine type ?_ ?_ (List.mem_cons_self ..)
  · rw [List.map_cons, List.nodup_cons]
    refine ⟨fun hmem => ?_, fields.nodup⟩
    obtain ⟨p, hp, heq⟩ := List.mem_map.mp hmem
    exact (fields.named p hp).2 heq
  · exact List.forall_mem_cons.mpr ⟨by simp, fun p hp => (fields.named p hp).1⟩

lemma noteQueue_append (ids : List Text) (queue : List Captured) (c : Captured) :
    x.noteQueue ids (queue ++ [c]) = (x.callOf c).note (x.noteQueue ids queue) := by
  rw [noteQueue, List.foldl_append]
  rfl

/-- A new position. -/
lemma agrees_enter {loaded : List Text} {n : ℕ} {s : LegacyState} (hinj : Function.Injective uuid4)
    (h : Agrees x uuid4 loaded n s) (symbol : String) (position : Entries) (fields : SignalFields) :
    Agrees x uuid4 loaded n (x.act uuid4 s (.enter symbol position fields)) := by
  unfold act
  dsimp only
  split
  · exact h
  · rename_i hnone
    have hids : ∀ engine' : Engine, engine'.openPositions = s.engine.openPositions ++
        [(symbol, ("position_id", .str (uuid4 s.drawn)) :: position)] →
        engineIds engine' = engineIds s.engine ++ [.chars (uuid4 s.drawn)] := by
      intro engine' heq
      rw [engineIds, heq, List.map_append, List.map_singleton, idOf_cons]
      rfl
    have hnew : Text.chars (uuid4 s.drawn) ∉ engineIds s.engine := h.fresh s.drawn le_rfl
    refine ⟨h.grown, ?_, ?_, ?_, ?_, ?_⟩
    · intro pid
      have hnote := (plain_fields (x := x) { s.engine with
        openPositions := s.engine.openPositions ++
          [(symbol, ("position_id", .str (uuid4 s.drawn)) :: position)] }
        "OPEN" (uuid4 s.drawn) fields).note_open rfl
      rw [hids _ rfl, push, noteQueue_append]
      change _ ↔ pid ∈ (x.callFor _ _ _).note _
      rw [hnote, List.mem_append, List.mem_singleton, List.mem_cons, or_comm]
      exact or_congr_right (h.ids pid)
    · rw [List.map_append, List.nodup_append]
      refine ⟨h.symbols, List.nodup_singleton _, fun a ha b hb => ?_⟩
      rw [List.mem_singleton.mp hb]
      rintro rfl
      exact heldAt_none hnone ha
    · rw [hids _ rfl, List.nodup_append]
      refine ⟨h.distinct, List.nodup_singleton _, fun a ha b hb => ?_⟩
      rw [List.mem_singleton.mp hb]
      rintro rfl
      exact hnew ha
    · intro m hm hmem
      rw [hids _ rfl] at hmem
      have hle : s.drawn + 1 ≤ m := hm
      rcases List.mem_append.mp hmem with hmem | hmem
      · exact h.fresh m (by omega) hmem
      · have hsame : m = s.drawn := hinj (Text.chars.inj (List.mem_singleton.mp hmem))
        omega
    · intro c hc
      rcases List.mem_append.mp hc with hc | hc
      · exact h.regular c hc
      · rw [List.mem_singleton.mp hc]
        exact fun hcounts => absurd (.inl rfl) hcounts

/-- A full CLOSE. -/
lemma agrees_leave {loaded : List Text} {n : ℕ} {s : LegacyState} (h : Agrees x uuid4 loaded n s)
    (symbol : String) (fields : SignalFields) (full : ∀ p ∈ fields.entries, p.1 ≠ "qty") :
    Agrees x uuid4 loaded n (x.act uuid4 s (.leave symbol fields full)) := by
  unfold act
  dsimp only
  split
  · exact h
  · rename_i e hheld
    obtain ⟨he, rfl⟩ := heldAt_some hheld
    have hnamed : ∀ p ∈ (("position_id", .str (idOf e.2)) :: fields.entries : Entries), p.1 ≠ "qty" :=
      List.forall_mem_cons.mpr ⟨by simp, full⟩
    have hqty := noQty_callFor (x := x) s.engine "CLOSE" hnamed
    have hnote := (plain_fields (x := x) s.engine "CLOSE" (idOf e.2) fields).note_close rfl hqty
    -- exactly the position of the symbol has its id
    have hids : ∀ pid, pid ∈ (s.engine.openPositions.filter fun e' => e'.1 ≠ e.1).map
        (fun e' => Text.chars (idOf e'.2)) ↔ pid ∈ engineIds s.engine ∧ pid ≠ .chars (idOf e.2) := by
      intro pid
      rw [List.mem_map, engineIds, List.mem_map]
      constructor
      · rintro ⟨e', he', rfl⟩
        obtain ⟨hmem, hne⟩ := List.mem_filter.mp he'
        refine ⟨⟨e', hmem, rfl⟩, fun hid => ?_⟩
        have hsame : e' = e := List.inj_on_of_nodup_map h.distinct hmem he hid
        exact of_decide_eq_true hne (congrArg Prod.fst hsame)
      · rintro ⟨⟨e', he', rfl⟩, hne⟩
        refine ⟨e', List.mem_filter.mpr ⟨he', decide_eq_true fun hsymbol => hne ?_⟩, rfl⟩
        have hsame : e' = e := List.inj_on_of_nodup_map h.symbols he' he hsymbol
        rw [hsame]
    have hsub : ((s.engine.openPositions.filter fun e' => e'.1 ≠ e.1)).Sublist s.engine.openPositions :=
      List.filter_sublist
    refine ⟨h.grown, ?_, h.symbols.sublist (hsub.map _), h.distinct.sublist (hsub.map _), ?_, ?_⟩
    · intro pid
      rw [push, noteQueue_append]
      change _ ↔ pid ∈ (x.callFor _ _ _).note _
      rw [hnote, List.mem_filter, decide_eq_true_iff, ← h.ids pid]
      exact hids pid
    · intro m hm hmem
      exact h.fresh m hm ((hids _).mp hmem).1
    · intro c hc
      rcases List.mem_append.mp hc with hc | hc
      · exact h.regular c hc
      · rw [List.mem_singleton.mp hc]
        exact fun hcounts => absurd (.inr ⟨rfl, hqty⟩) hcounts

/-- A signal that changes nothing for a reader, of a position that stays. -/
lemma agrees_silent {loaded : List Text} {n : ℕ} {s : LegacyState} (h : Agrees x uuid4 loaded n s)
    {engine' : Engine} (hids : engineIds engine' = engineIds s.engine)
    (hsymbols : engine'.openPositions.map Prod.fst = s.engine.openPositions.map Prod.fst)
    {c : Captured} (hnote : ∀ ids, (x.callOf c).note ids = ids) :
    Agrees x uuid4 loaded n { s with engine := engine', pending := s.pending ++ [c] } := by
  refine ⟨h.grown, fun pid => ?_, ?_, ?_, ?_, ?_⟩
  · rw [hids, noteQueue_append, hnote]
    exact h.ids pid
  · rw [hsymbols]
    exact h.symbols
  · rw [hids]
    exact h.distinct
  · rw [hids]
    exact h.fresh
  · intro c' hc'
    rcases List.mem_append.mp hc' with hc' | hc'
    · exact h.regular c' hc'
    · rw [List.mem_singleton.mp hc']
      exact fun _ => hnote

/-- A MODIFY or a partial CLOSE. -/
lemma agrees_adjust {loaded : List Text} {n : ℕ} {s : LegacyState} (h : Agrees x uuid4 loaded n s)
    (symbol : String) (part : Option PyFloat) (position : Entries) (fields : SignalFields) :
    Agrees x uuid4 loaded n (x.act uuid4 s (.adjust symbol part position fields)) := by
  unfold act
  dsimp only
  split
  · exact h
  · rename_i e hheld
    obtain ⟨he, rfl⟩ := heldAt_some hheld
    let replace := fun e' : String × Entries =>
      if e'.1 = e.1 then (e.1, ("position_id", Json.str (idOf e.2)) :: position) else e'
    let engine' : Engine := { s.engine with openPositions := s.engine.openPositions.map replace }
    have hsymbols : engine'.openPositions.map Prod.fst = s.engine.openPositions.map Prod.fst := by
      change (s.engine.openPositions.map replace).map Prod.fst = _
      rw [List.map_map]
      refine List.map_congr_left fun e' _ => ?_
      change (if e'.1 = e.1 then _ else e').1 = e'.1
      split
      · rename_i heq
        exact heq.symm
      · rfl
    have hids : engineIds engine' = engineIds s.engine := by
      change (s.engine.openPositions.map replace).map (fun e' => Text.chars (idOf e'.2)) = _
      rw [List.map_map]
      refine List.map_congr_left fun e' he' => ?_
      change Text.chars (idOf (if e'.1 = e.1 then _ else e').2) = Text.chars (idOf e'.2)
      split
      · rename_i heq
        obtain rfl : e' = e := List.inj_on_of_nodup_map h.symbols he' he heq
        rfl
      · rfl
    cases part with
    | none =>
      have hopen : ("MODIFY" : String) ≠ "OPEN" := by decide
      have hclose : ("MODIFY" : String) ≠ "CLOSE" := by decide
      refine agrees_silent h hids hsymbols fun ids => ?_
      exact (plain_fields (x := x) s.engine "MODIFY" (idOf e.2) fields).note_other hopen hclose ids
    | some qty =>
      refine agrees_silent h hids hsymbols fun ids => ?_
      have hnodup : ((("position_id", Json.str (idOf e.2)) :: ("qty", .float qty) ::
          fields.entries.filter fun p => p.1 ≠ "qty").map Prod.fst).Nodup := by
        have hrest := fields.nodup.sublist
          ((List.filter_sublist (p := fun p => decide (p.1 ≠ "qty")) (l := fields.entries)).map Prod.fst)
        rw [List.map_cons, List.map_cons, List.nodup_cons, List.nodup_cons]
        refine ⟨fun hmem => ?_, fun hmem => ?_, hrest⟩
        · rcases List.mem_cons.mp hmem with heq | hmem
          · exact absurd heq (by simp)
          · obtain ⟨p, hp, heq⟩ := List.mem_map.mp hmem
            exact (fields.named p (List.mem_of_mem_filter hp)).2 heq
        · obtain ⟨p, hp, heq⟩ := List.mem_map.mp hmem
          exact of_decide_eq_true (List.mem_filter.mp hp).2 heq
      have htype : ∀ p ∈ ("position_id", Json.str (idOf e.2)) :: ("qty", .float qty) ::
          fields.entries.filter fun p => p.1 ≠ "qty", p.1 ≠ "type" := by
        refine List.forall_mem_cons.mpr ⟨by simp, List.forall_mem_cons.mpr ⟨by simp, fun p hp => ?_⟩⟩
        exact (fields.named p (List.mem_of_mem_filter hp)).1
      have hplain := plain_callFor (x := x) s.engine "CLOSE" hnodup htype (List.mem_cons_self ..)
      obtain ⟨extra, heq, -⟩ := (enriched_enrichSignalFields (x := x) s.engine
        (("position_id", Json.str (idOf e.2)) :: ("qty", .float qty) ::
          fields.entries.filter fun p => p.1 ≠ "qty")).added
      have hqty : ("qty", Json.float qty) ∈ (x.callFor s.engine "CLOSE"
          (("position_id", Json.str (idOf e.2)) :: ("qty", .float qty) ::
            fields.entries.filter fun p => p.1 ≠ "qty")).fields := by
        change _ ∈ x.enrichSignalFields _ _
        rw [heq]
        exact List.mem_append_left _ (List.mem_cons_of_mem _ (List.mem_cons_self ..))
      have hopen : ("CLOSE" : String) ≠ "OPEN" := by decide
      exact hplain.note_part hopen hqty Json.noConfusion ids

lemma agrees_act {loaded : List Text} {n : ℕ} {s : LegacyState} (hinj : Function.Injective uuid4)
    (h : Agrees x uuid4 loaded n s) (a : EngineAction) :
    Agrees x uuid4 loaded n (x.act uuid4 s a) := by
  cases a with
  | enter symbol position fields => exact agrees_enter hinj h symbol position fields
  | leave symbol fields full => exact agrees_leave h symbol fields full
  | adjust symbol part position fields => exact agrees_adjust h symbol part position fields

lemma agrees_acts {loaded : List Text} {n : ℕ} (hinj : Function.Injective uuid4)
    (actions : List EngineAction) {s : LegacyState} (h : Agrees x uuid4 loaded n s) :
    Agrees x uuid4 loaded n (actions.foldl (x.act uuid4) s) := by
  induction actions generalizing s with
  | nil => exact h
  | cons a actions ih => exact ih (agrees_act hinj h a)

/-! ## The flush -/

variable (x digest env) in
/-- A flush dispatches the queue up to and including the first append that raises. -/
lemma run_flushSignals (queue : List Captured) (o : Outbox) : ∃ sent rest r o',
    (x.flushSignals digest env queue).run (queue, o) = (r, (rest, o')) ∧
      Outbox.Sends digest o sent o' ∧
      queue.map x.callOf = sent.map Prod.fst ++ rest.map x.callOf := by
  induction queue generalizing o with
  | nil => exact ⟨[], [], .ok (), o, rfl, .nil o, rfl⟩
  | cons c queue ih =>
    rw [flushSignals, Coro.run_bind_ok (run_modifyState _ _)]
    rcases run_emitSignal_outcome digest env (queue, o) (x.callOf c) with ⟨-, hrun⟩ | ⟨-, hrun⟩
    · rw [Coro.run_bind_ok hrun]
      obtain ⟨sent, rest, r, o', hflush, hsends, hqueue⟩ :=
        ih (o.send digest (o.next env) (x.callOf c))
      exact ⟨_, rest, r, o', hflush, .cons hsends, congrArg (x.callOf c :: ·) hqueue⟩
    · rw [Coro.run_bind_error hrun]
      exact ⟨_, queue, _, _, rfl, .single .., rfl⟩

variable (x digest uuid4 env) in
/-- The outcomes of a scan that keep the book and the stream together: every OPEN and every full CLOSE
is appended, also when a dispatch raises. -/
def KeptScan (actions : List EngineAction) (s : LegacyState) : Prop :=
  let s' := actions.foldl (x.act uuid4) s
  let sent := Outbox.since digest s'.outbox (x.flush digest env s').outbox
  (∀ e ∈ sent, Counts e.1 → e.2.appended = true) ∧
    ∀ c ∈ s'.pending.drop sent.length, ¬ Counts (x.callOf c)

/-- Sent signals and those that are still pending make up the queue. -/
lemma noteAll_flushed {sent : List (Call × Outcome)} {queue : List Captured}
    (hcalls : sent.map Prod.fst = queue.map x.callOf) (hregular : ∀ c ∈ queue, Regular (x.callOf c))
    (happended : ∀ e ∈ sent, Counts e.1 → e.2.appended = true) (ids : List Text) :
    noteAll ids sent = x.noteQueue ids queue := by
  induction queue generalizing sent ids with
  | nil =>
    rw [List.map_nil, List.map_eq_nil_iff] at hcalls
    rw [hcalls]
    rfl
  | cons c queue ih =>
    cases sent with
    | nil => cases hcalls
    | cons e sent =>
      obtain ⟨c', outcome⟩ := e
      rw [List.map_cons, List.map_cons, List.cons.injEq] at hcalls
      obtain ⟨hhead, htail⟩ := hcalls
      change c' = x.callOf c at hhead
      have hstep : (if outcome.appended then c'.note ids else ids) = (x.callOf c).note ids := by
        rw [hhead]
        by_cases hcounts : Counts c'
        · rw [happended _ (List.mem_cons_self ..) hcounts, if_pos rfl]
        · rw [hhead] at hcounts
          rw [hregular c (List.mem_cons_self ..) hcounts, ite_self]
      rw [noteAll_cons, hstep]
      exact ih htail (fun c hc => hregular c (List.mem_cons_of_mem _ hc))
        (fun e he => happended e (List.mem_cons_of_mem _ he)) _

lemma noteQueue_of_not_counts {queue : List Captured} (hregular : ∀ c ∈ queue, Regular (x.callOf c))
    (h : ∀ c ∈ queue, ¬ Counts (x.callOf c)) (ids : List Text) : x.noteQueue ids queue = ids := by
  induction queue with
  | nil => rfl
  | cons c queue ih =>
    have hhead := hregular c (List.mem_cons_self ..) (h c (List.mem_cons_self ..)) ids
    rw [noteQueue, List.foldl_cons, hhead]
    exact ih (fun c hc => hregular c (List.mem_cons_of_mem _ hc))
      fun c hc => h c (List.mem_cons_of_mem _ hc)

/-- One scan. -/
lemma follows_scan {loaded : List Text} {n : ℕ} {s : LegacyState} (hinj : Function.Injective uuid4)
    (h : Agrees x uuid4 loaded n s) {actions : List EngineAction}
    (hkept : KeptScan x digest uuid4 env actions s) :
    Agrees x uuid4 loaded n (x.scan digest uuid4 env s actions) ∧
      SameIds (engineIds (x.scan digest uuid4 env s actions).engine)
        ((x.scan digest uuid4 env s actions).outbox.openIds loaded n) := by
  have hacts := agrees_acts hinj actions h
  unfold KeptScan at hkept
  unfold scan
  generalize actions.foldl (x.act uuid4) s = s' at *
  obtain ⟨sent, rest, r, o', hrun, hsends, hqueue⟩ := run_flushSignals x digest env s'.pending s'.outbox
  have hflush : x.flush digest env s' = { s' with pending := rest, outbox := o' } := by
    unfold flush
    rw [hrun]
  dsimp only at hkept
  rw [hflush] at hkept ⊢
  rw [hsends.since_eq] at hkept
  obtain ⟨happended, hpending⟩ := hkept
  obtain ⟨hgrown, hids⟩ := hsends.openIds loaded hacts.grown
  have hsent : sent.map Prod.fst = (s'.pending.take sent.length).map x.callOf := by
    rw [List.map_take, hqueue, List.take_left' (List.length_map _)]
  have hrest : rest.map x.callOf = (s'.pending.drop sent.length).map x.callOf := by
    rw [List.map_drop, hqueue, List.drop_left' (List.length_map _)]
  have hregular : ∀ c ∈ rest, Regular (x.callOf c) ∧ ¬ Counts (x.callOf c) := by
    intro c hc
    have hmem : x.callOf c ∈ (s'.pending.drop sent.length).map x.callOf := by
      rw [← hrest]
      exact List.mem_map_of_mem hc
    obtain ⟨c', hc', heq⟩ := List.mem_map.mp hmem
    rw [← heq]
    exact ⟨hacts.regular c' (List.mem_of_mem_drop hc'), hpending c' hc'⟩
  have hopen : o'.openIds loaded n = x.noteQueue (s'.outbox.openIds loaded n) s'.pending := by
    have htail := noteQueue_of_not_counts
      (fun c hc => hacts.regular c (List.mem_of_mem_drop hc)) hpending
      (x.noteQueue (s'.outbox.openIds loaded n) (s'.pending.take sent.length))
    rw [hids, noteAll_flushed hsent (fun c hc => hacts.regular c (List.mem_of_mem_take hc)) happended,
      ← htail, noteQueue, noteQueue, noteQueue, ← List.foldl_append, List.take_append_drop]
  have hfollows : SameIds (engineIds s'.engine) (o'.openIds loaded n) := by
    rw [hopen]
    exact hacts.ids
  refine ⟨⟨hgrown, ?_, hacts.symbols, hacts.distinct, hacts.fresh, fun c hc => (hregular c hc).1⟩,
    hfollows⟩
  rw [noteQueue_of_not_counts (fun c hc => (hregular c hc).1) fun c hc => (hregular c hc).2]
  exact hfollows

end LegacyStandalone

end PaperTrade.Runner
