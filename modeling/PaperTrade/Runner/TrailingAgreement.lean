import PaperTrade.Runner.Dedup
import PaperTrade.Runner.Wire
import PaperTrade.Runtime.Along
import PaperTrade.Worker.Levels
import PaperTrade.Base.RuntimeMetadata

/-!
# The trailing level in the worker

`SuploXauRunnerStrategy` publishes its trailing level as the TP of the position, and exits when a candle
comes back to it. The worker takes the TP for a price to be reached from the other side, so its pass closes
the position at the first quote that is still beyond the level. It agrees with the strategy where every
quote that a pass sees has retraced to the level sent last.
-/

namespace PaperTrade.Runner

open PaperTrade.Runtime PaperTrade.Worker Dispatcher

namespace SuploXau

/-- The calls of the strategy. -/
inductive Sends (x : SuploXau) : Call → Prop
  | opened (p : SuploPosition) : x.Sends (x.openCall p)
  | closed (id reason : String) (price : Option PyFloat) (t : ℤ) :
    x.Sends (x.closeCall id reason price t)
  | modified (id : String) (target : PyFloat) : x.Sends (x.modifyCall id target)

section Emits

variable (x : SuploXau) (digest : Logical → String) (uuid5 : String → String)
  (env : ℕ → DispatchEnv)

lemma emits_closePosition (id reason : String) (price : Option PyFloat) (t : ℤ) :
    Emits x.Sends (x.closePosition digest env id reason price t) :=
  (Emits.emit (.closed id reason price t) digest env).bind fun _ => .modifyState _

lemma emits_openIfAllowed (side : String) (entry : PyFloat) (t : ℤ) :
    Emits x.Sends (x.openIfAllowed digest uuid5 env side entry t) := by
  refine Emits.getState.bind fun s => ?_
  split
  · exact .pure ()
  · refine (Emits.ofExcept _).bind fun qty => ?_
    split
    · exact .pure ()
    · exact (Emits.emit (.opened _) digest env).bind fun _ => .modifyState _

lemma emits_manageOnBar (c : Candle) : Emits x.Sends (x.manageOnBar digest env c) := by
  refine Emits.getState.bind fun s => ?_
  split
  · exact .pure ()
  · split
    · exact .modifyState _
    · exact x.emits_closePosition digest env _ _ _ _
    · refine (Emits.modifyState _).bind fun _ => ?_
      split
      · exact (Emits.emit (.modified _ _) digest env).bind fun _ => .modifyState _
      · exact .pure ()

lemma emits_entry (step : StateStep) (t : ℤ) :
    Emits x.Sends (match step.flipOpen, step.side with
      | true, some side => x.openIfAllowed digest uuid5 env side step.entryPrice t
      | _, _ => pure () : Method SuploState Unit) := by
  split
  · exact x.emits_openIfAllowed digest uuid5 env _ _ _
  · exact .pure ()

lemma emits_evaluateEntries (c : Candle) (direction : ℤ) :
    Emits x.Sends (x.evaluateEntries digest uuid5 env c direction) := by
  refine Emits.getState.bind fun s => (Emits.modifyState _).bind fun _ => ?_
  have hentry := x.emits_entry digest uuid5 env (x.entryStep s c direction) c.time
  cases existingPosition s with
  | none => exact hentry
  | some p =>
    dsimp only
    split
    · exact (x.emits_closePosition digest env _ _ _ _).bind fun _ => hentry
    · split
      · exact (x.emits_closePosition digest env _ _ _ _).bind fun _ => hentry
      · exact hentry

lemma emits_scan (input : ScanInput) : Emits x.Sends (x.scan digest uuid5 env input) := by
  refine Emits.getState.bind fun s => ?_
  split
  · exact .pure ()
  · split
    · exact .modifyState _
    · refine (Emits.modifyState _).bind fun _ => (x.emits_manageOnBar digest env _).bind fun _ => ?_
      split
      · exact x.emits_evaluateEntries digest uuid5 env _ _
      · exact .pure ()

/-- An event of the strategy appends its calls to the stream. -/
lemma extends_step (w : SuploState × Outbox) (e : Event) :
    Extends x.Sends w.2.dispatcher.stream (x.step digest uuid5 env w e).2.dispatcher.stream := by
  cases e with
  | kline ready latest => exact .refl _
  | scan input => exact x.emits_scan digest uuid5 env input w
  | restart loaded ok => exact .refl _

end Emits

/-! ## The strategy and the worker -/

/-- The strategy, the messages of its stream that the worker has taken, and the tables of the worker. -/
structure World where
  strategy : SuploState × Outbox
  taken : ℕ := 0
  worker : Tables

/-- An event of the strategy, the next message of the stream, or a pass. -/
inductive WorldEvent
  | strategy (e : Event)
  | deliver (env : Worker.Env)
  | check (env : Executor.TpslEnv)

section World

variable (x : SuploXau) (ex : Executor) (digest : Logical → String) (uuid5 : String → String)
  (env : ℕ → DispatchEnv)

/-- One step of the strategy or of the worker. -/
def worldStep (w : World) : WorldEvent → World
  | .strategy e => { w with strategy := x.step digest uuid5 env w.strategy e }
  | .deliver env =>
    match w.strategy.2.dispatcher.stream[w.taken]? with
    | none => w
    | some m => { w with taken := w.taken + 1, worker := deliver ex w.worker ⟨rawSignal m, env⟩ }
  | .check env => { w with worker := checked ex env w.worker }

/-- The MODIFYs of a position. -/
def modifies (stream : List Message) (positionId : String) : List Message :=
  stream.filter fun m => m.get? "type" = some (.chars "MODIFY") ∧
    m.get? "position_id" = some (.chars positionId)

/-- The level that the last MODIFY of a position has sent. -/
def lastLevel (stream : List Message) (positionId : String) : Option PyFloat :=
  (modifies stream positionId).getLast?.bind fun m => (m.get? "tp").bind Text.float?

/-- The quote has come back to the level. -/
def Retraced (side : String) (level price : PyFloat) : Prop :=
  if side = "LONG" then price ≤ level else level ≤ price

instance (side : String) (level price : PyFloat) : Decidable (Retraced side level price) :=
  inferInstanceAs (Decidable (if side = "LONG" then price ≤ level else level ≤ price))

/-- A position of the strategy that a pass closes has a level, and its quote has retraced to it. -/
def ClosesRetraced (w : World) : WorldEvent → Prop
  | .check env => ∀ p ∈ w.worker.positions.rows, p.alphaId = x.alphaId →
      (checked ex env w.worker).positions.contains p.positionId = false →
      ∃ quote level, env.price p.symbol p.side = some quote ∧
        lastLevel w.strategy.2.dispatcher.stream p.positionId = some level ∧
        Retraced p.side level quote.price
  | _ => True

/-- No pass sees a quote that is still beyond the level of a position. -/
def SeesRetraced (w : World) : WorldEvent → Prop
  | .check env => ∀ p ∈ w.worker.positions.rows, p.alphaId = x.alphaId →
      ∀ quote ∈ env.price p.symbol p.side,
      ∀ level ∈ lastLevel w.strategy.2.dispatcher.stream p.positionId,
        Retraced p.side level quote.price
  | _ => True

instance (w : World) (e : WorldEvent) : Decidable (x.SeesRetraced w e) :=
  match e with
  | .check env => inferInstanceAs (Decidable (∀ p ∈ w.worker.positions.rows, p.alphaId = x.alphaId →
      ∀ quote ∈ env.price p.symbol p.side,
      ∀ level ∈ lastLevel w.strategy.2.dispatcher.stream p.positionId,
        Retraced p.side level quote.price))
  | .strategy _ => .isTrue trivial
  | .deliver _ => .isTrue trivial

end World

/-! ## What the worker reads of the calls -/

section Read

variable {x : SuploXau}

lemma Sends.nodup {c : Call} (h : x.Sends c) : (c.fields.map Prod.fst).Nodup := by
  cases h with
  | opened p =>
    simp only [openCall, call, List.map_cons, List.map_nil]
    decide
  | closed id reason price t =>
    simp only [closeCall, call, List.map_cons, List.map_nil]
    decide
  | modified id target =>
    simp only [modifyCall, call, List.map_cons, List.map_nil]
    decide

lemma Sends.untyped {c : Call} (h : x.Sends c) : ∀ p ∈ c.fields, p.1 ≠ "type" := by
  have hkeys : "type" ∉ c.fields.map Prod.fst := by
    cases h with
    | opened p =>
      simp only [openCall, call, List.map_cons, List.map_nil]
      decide
    | closed id reason price t =>
      simp only [closeCall, call, List.map_cons, List.map_nil]
      decide
    | modified id target =>
      simp only [modifyCall, call, List.map_cons, List.map_nil]
      decide
  exact fun p hp htype => hkeys (htype ▸ List.mem_map_of_mem hp)

/-- What the worker reads of a message. -/
inductive Reads (m : Message) : Prop
  | opened (htype : m.get? "type" = some (.chars "OPEN")) (htp : m.get? "tp" = none)
      (hsl : m.get? "sl" = none)
  | closed (htype : m.get? "type" = some (.chars "CLOSE"))
  | modified {id target} (htype : m.get? "type" = some (.chars "MODIFY"))
      (hid : m.get? "position_id" = some (.chars id)) (htp : m.get? "tp" = some (.num target))
      (hsl : m.get? "sl" = none)

lemma Sends.reads {c : Call} (h : x.Sends c) (now id : String) : Reads (c.payload now id) := by
  have htype := get?_payload_type h.untyped now id
  have hnodup := h.nodup
  cases h with
  | opened p =>
    have htp : ("tp", Json.null) ∈ (x.openCall p).fields := List.mem_of_getElem? (i := 5) rfl
    have hsl : ("sl", Json.null) ∈ (x.openCall p).fields := List.mem_of_getElem? (i := 6) rfl
    exact .opened htype (get?_payload_none (null_of_mem hnodup htp) (by decide) now id)
      (get?_payload_none (null_of_mem hnodup hsl) (by decide) now id)
  | closed pid reason price t => exact .closed htype
  | modified pid target =>
    have hid : ("position_id", Json.str pid) ∈ (x.modifyCall pid target).fields :=
      List.mem_of_getElem? (i := 0) rfl
    have htp : ("tp", Json.float target) ∈ (x.modifyCall pid target).fields :=
      List.mem_of_getElem? (i := 2) rfl
    have hkeys : "sl" ∉ (x.modifyCall pid target).fields.map Prod.fst := by
      simp only [modifyCall, call, List.map_cons, List.map_nil]
      decide
    have hsl : ∀ p ∈ (x.modifyCall pid target).fields, p.1 = "sl" → p.2 = .null :=
      fun p hp hkey => absurd (hkey ▸ List.mem_map_of_mem hp) hkeys
    exact .modified htype (get?_payload_of_mem hnodup hid Json.noConfusion (by decide) now id)
      (get?_payload_of_mem hnodup htp Json.noConfusion (by decide) now id)
      (get?_payload_none hsl (by decide) now id)

/-- A MODIFY of the stream sends a level. -/
lemma lastLevel_isSome {stream : List Message} (hreads : ∀ m ∈ stream, Reads m) {m : Message}
    (hm : m ∈ stream) {id : String} (htype : m.get? "type" = some (.chars "MODIFY"))
    (hid : m.get? "position_id" = some (.chars id)) : (lastLevel stream id).isSome := by
  have hmem : m ∈ modifies stream id := List.mem_filter.mpr ⟨hm, decide_eq_true ⟨htype, hid⟩⟩
  have hne : modifies stream id ≠ [] := List.ne_nil_of_mem hmem
  obtain ⟨hlast, hmodify⟩ := List.mem_filter.mp (List.getLast_mem hne)
  have hlevel : (modifies stream id).getLast? = some ((modifies stream id).getLast hne) :=
    List.getLast?_eq_some_getLast hne
  rw [lastLevel, hlevel, Option.bind_some]
  have hmodify' := (of_decide_eq_true hmodify).1
  cases hreads _ hlast with
  | opened htype _ _ => exact absurd (hmodify'.symm.trans htype) (by decide)
  | closed htype => exact absurd (hmodify'.symm.trans htype) (by decide)
  | modified _ _ htp _ =>
    rw [htp]
    rfl

end Read

/-! ## Runs -/

section Runs

variable {x : SuploXau} {ex : Executor} {digest : Logical → String} {uuid5 : String → String}
  {env : ℕ → DispatchEnv} {w : World}

/-- The stream holds calls of the strategy only, and a position of the strategy has no SL, and a TP only
after a MODIFY. -/
structure Tracks (x : SuploXau) (w : World) : Prop where
  reads : ∀ m ∈ w.strategy.2.dispatcher.stream, Reads m
  stop : ∀ p ∈ w.worker.positions.rows, p.alphaId = x.alphaId → p.sl = none
  level : ∀ p ∈ w.worker.positions.rows, p.alphaId = x.alphaId → p.tp.isSome = true →
    (lastLevel w.strategy.2.dispatcher.stream p.positionId).isSome = true

lemma tracks_strategy (h : Tracks x w) (e : Event) :
    Tracks x (x.worldStep ex digest uuid5 env w (.strategy e)) := by
  have hextends := x.extends_step digest uuid5 env w.strategy e
  have hreads : ∀ m ∈ (x.step digest uuid5 env w.strategy e).2.dispatcher.stream, Reads m := by
    intro m hm
    rcases hextends.mem hm with hold | ⟨c, now, id, hc, rfl⟩
    · exact h.reads m hold
    · exact hc.reads now id
  refine ⟨hreads, h.stop, fun p hp halpha htp => ?_⟩
  -- the MODIFY that the level is from is still in the stream
  have hlevel := h.level p hp halpha htp
  have hne : modifies w.strategy.2.dispatcher.stream p.positionId ≠ [] := by
    intro hnil
    rw [lastLevel, hnil] at hlevel
    cases hlevel
  obtain ⟨m, hm⟩ := List.exists_mem_of_ne_nil _ hne
  obtain ⟨hold, hmodify⟩ := List.mem_filter.mp hm
  obtain ⟨htype, hid⟩ := of_decide_eq_true hmodify
  exact lastLevel_isSome hreads (hextends.grows.subset hold) htype hid

/-- A message of the stream. -/
lemma tracks_deliver (h : Tracks x w) (env' : Worker.Env) :
    Tracks x (x.worldStep ex digest uuid5 env w (.deliver env')) := by
  unfold worldStep
  dsimp only
  cases hm : w.strategy.2.dispatcher.stream[w.taken]? with
  | none => exact h
  | some m =>
    have hmem := List.mem_of_getElem? hm
    have htype : ∀ signal, parseSignal (rawSignal m) = .ok signal →
        (m.get? "type").map Text.spell = some (Base.typeName signal) := fun _ => Base.type_of_parse
    have hnone : ∀ {l : Option PyFloat}, optFloat none = .ok l → l = none := fun hl => by
      cases hl
      rfl
    refine ⟨h.reads, fun p' hp' halpha => ?_, fun p' hp' halpha htp' => ?_⟩
    · cases deliver_levels ex ⟨rawSignal m, env'⟩ w.worker hp' with
      | kept hp hlevels =>
        simp only [PositionRow.levels, Prod.mk.injEq] at hlevels
        rw [hlevels.2.2.2.2.2]
        exact h.stop _ hp (hlevels.2.1.symm.trans halpha)
      | opened hparse _ _ hsl =>
        have hread := htype _ hparse
        have hlevel := (open_levels hparse).2
        cases h.reads m hmem with
        | opened _ _ hnosl =>
          change optFloat (m.get? "sl") = _ at hlevel
          rw [hnosl] at hlevel
          rw [hsl, hnone hlevel]
          rfl
        | closed ht =>
          rw [ht] at hread
          exact absurd hread (by simp [Base.typeName, Text.spell])
        | modified ht _ _ _ =>
          rw [ht] at hread
          exact absurd hread (by simp [Base.typeName, Text.spell])
      | @moved _ p _ hparse hp _ hrow =>
        have hread := htype _ hparse
        have hlevel := (modify_levels hparse).2.2
        cases h.reads m hmem with
        | modified _ _ _ hnosl =>
          change optFloat (m.get? "sl") = _ at hlevel
          rw [hnosl] at hlevel
          subst hrow
          have hstop : p.sl = none := h.stop p hp halpha
          rw [PositionRow.updated, hnone hlevel]
          exact hstop
        | opened ht _ _ =>
          rw [ht] at hread
          exact absurd hread (by simp [Base.typeName, Text.spell])
        | closed ht =>
          rw [ht] at hread
          exact absurd hread (by simp [Base.typeName, Text.spell])
    · cases deliver_levels ex ⟨rawSignal m, env'⟩ w.worker hp' with
      | kept hp hlevels =>
        simp only [PositionRow.levels, Prod.mk.injEq] at hlevels
        rw [hlevels.1]
        exact h.level _ hp (hlevels.2.1.symm.trans halpha) (hlevels.2.2.2.2.1 ▸ htp')
      | opened hparse _ htp _ =>
        have hread := htype _ hparse
        have hlevel := (open_levels hparse).1
        cases h.reads m hmem with
        | opened _ hnotp _ =>
          change optFloat (m.get? "tp") = _ at hlevel
          rw [hnotp] at hlevel
          rw [htp, hnone hlevel] at htp'
          cases htp'
        | closed ht =>
          rw [ht] at hread
          exact absurd hread (by simp [Base.typeName, Text.spell])
        | modified ht _ _ _ =>
          rw [ht] at hread
          exact absurd hread (by simp [Base.typeName, Text.spell])
      | moved hparse _ hid hrow =>
        have hread := htype _ hparse
        have hnames := (modify_levels hparse).1
        cases h.reads m hmem with
        | @modified pid target ht hpid _ _ =>
          have hrow' : p'.positionId = pid := by
            rw [hrow, PositionRow.positionId_updated, hid, hnames]
            change ((m.get? "position_id").map Text.spell).getD "" = pid
            rw [hpid]
            rfl
          rw [hrow']
          exact lastLevel_isSome h.reads hmem ht hpid
        | opened ht _ _ =>
          rw [ht] at hread
          exact absurd hread (by simp [Base.typeName, Text.spell])
        | closed ht =>
          rw [ht] at hread
          exact absurd hread (by simp [Base.typeName, Text.spell])

lemma tracks_check (h : Tracks x w) (env' : Executor.TpslEnv) :
    Tracks x (x.worldStep ex digest uuid5 env w (.check env')) := by
  have hrows := (checked_passes ex env' w.worker).levels
  refine ⟨h.reads, fun p' hp' halpha => ?_, fun p' hp' halpha htp' => ?_⟩
  · obtain ⟨p, hp, hlevels⟩ := hrows p' hp'
    simp only [PositionRow.levels, Prod.mk.injEq] at hlevels
    rw [hlevels.2.2.2.2.2]
    exact h.stop p hp (hlevels.2.1.symm.trans halpha)
  · obtain ⟨p, hp, hlevels⟩ := hrows p' hp'
    simp only [PositionRow.levels, Prod.mk.injEq] at hlevels
    rw [hlevels.1]
    exact h.level p hp (hlevels.2.1.symm.trans halpha) (hlevels.2.2.2.2.1 ▸ htp')

/-- Without an SL only the TP can be hit. -/
lemma tp_of_hit {p : PositionRow} {price : PyFloat} (hsl : p.sl = none)
    (h : (Executor.tpslHit p price).isSome = true) : p.tp.isSome = true := by
  cases htp : p.tp with
  | some tp => rfl
  | none =>
    have hnone : Executor.tpslHit p price = none := by
      unfold Executor.tpslHit
      rw [htp, hsl]
      dsimp only [Option.filter_none]
      split
      · rfl
      · split <;> rfl
    rw [hnone] at h
    cases h

/-- A pass closes a position of the strategy at a level, and at the quotes it sees. -/
lemma closesRetraced_of_sees (h : Tracks x w) {e : WorldEvent} (hsees : x.SeesRetraced w e) :
    x.ClosesRetraced ex w e := by
  cases e with
  | strategy e => trivial
  | deliver env' => trivial
  | check env' =>
    intro p hp halpha hclosed
    have hin : w.worker.positions.contains p.positionId = true :=
      (Table.contains_iff _ _).mpr ⟨p, hp, rfl⟩
    obtain ⟨pos, hpos, hid, quote, hprice, hhit⟩ :=
      (checked_passes ex env' w.worker).hit p.positionId hin hclosed
    have hsame := w.worker.positions.eq_of_key_eq hpos hp hid
    subst hsame
    have htp := tp_of_hit (h.stop pos hp halpha) hhit
    obtain ⟨level, hlevel⟩ := Option.isSome_iff_exists.mp (h.level pos hp halpha htp)
    exact ⟨quote, level, hprice, hlevel, hsees pos hp halpha quote hprice level hlevel⟩

end Runs

/-- As long as every quote that a pass sees has retraced to the level sent last, the worker closes the
positions of the strategy only on the condition of the strategy. -/
theorem closes_retraced (x : SuploXau) (ex : Executor) (digest : Logical → String)
    (uuid5 : String → String) (env : ℕ → DispatchEnv) (w : World) (events : List WorldEvent)
    (hstream : w.strategy.2.dispatcher.stream = [])
    (hnew : ∀ p ∈ w.worker.positions.rows, p.alphaId ≠ x.alphaId)
    (hsees : Along (x.worldStep ex digest uuid5 env) x.SeesRetraced w events) :
    Along (x.worldStep ex digest uuid5 env) (x.ClosesRetraced ex) w events := by
  refine Along.of_inv (I := Tracks x) (fun w e h _ => ?_) (fun w e h he => closesRetraced_of_sees h he)
    ?_ hsees
  · cases e with
    | strategy e => exact tracks_strategy h e
    | deliver env' => exact tracks_deliver h env'
    | check env' => exact tracks_check h env'
  · refine ⟨fun m hm => ?_, fun p hp halpha => absurd halpha (hnew p hp),
      fun p hp halpha => absurd halpha (hnew p hp)⟩
    rw [hstream] at hm
    cases hm

/-- A dispatch that goes well, on a November day. -/
def novemberEnv : ℕ → DispatchEnv := fun _ => { now := "2023-11-14T22:13:20+00:00" }

/-- The strategy opens and trails, and the worker takes the OPEN and the MODIFY. -/
def trailingEvents : List WorldEvent :=
  (risingRun 3).map .strategy ++
    [.deliver { now := "2023-11-14T22:13:20+00:00", uuid := "u" },
      .deliver { now := "2023-11-14T22:13:20+00:00", uuid := "u" }]

/-- A pass at one price. -/
def checkAt (price : PyFloat) : WorldEvent :=
  .check
    { now := "2023-11-14T22:30:00+00:00"
      uuid := fun id => id
      price := fun _ _ => some ⟨price, "ticker_mid", false⟩ }

def startWorld : World where
  strategy := ({}, { dispatcher := {} })
  worker := .empty

/-- The worker closes the LONG at 121, above the level of 120.45. -/
theorem closes_before_retracing :
    ¬ Along (suplo.worldStep {} typeDigest id novemberEnv) (suplo.ClosesRetraced {}) startWorld
      (trailingEvents ++ [checkAt 121]) := by
  intro h
  have hlast := Along.at h
  obtain ⟨p, hp, hprops⟩ : ∃ p ∈ (trailingEvents.foldl
      (suplo.worldStep {} typeDigest id novemberEnv) startWorld).worker.positions.rows,
      p.alphaId = suplo.alphaId ∧ p.side = "LONG" ∧
      (checked {} { now := "2023-11-14T22:30:00+00:00", uuid := fun id => id
                    price := fun _ _ => some ⟨121, "ticker_mid", false⟩ }
        (trailingEvents.foldl (suplo.worldStep {} typeDigest id novemberEnv)
          startWorld).worker).positions.contains p.positionId = false ∧
      lastLevel (trailingEvents.foldl (suplo.worldStep {} typeDigest id novemberEnv)
        startWorld).strategy.2.dispatcher.stream p.positionId = some (.fin (2409 / 20)) := by
    decide +kernel
  obtain ⟨halpha, hside, hclosed, hlevel⟩ := hprops
  obtain ⟨quote, level, hquote, hlevel', hretraced⟩ := hlast p hp halpha hclosed
  cases hquote
  rw [hlevel] at hlevel'
  cases hlevel'
  rw [Retraced, if_pos hside] at hretraced
  exact absurd hretraced (by decide +kernel)

theorem closes_retraced_at_level :
    Along (suplo.worldStep {} typeDigest id novemberEnv) (suplo.ClosesRetraced {}) startWorld
      (trailingEvents ++ [checkAt (.fin (2409 / 20))]) :=
  closes_retraced suplo {} typeDigest id novemberEnv startWorld _ rfl
    (fun _ hp => absurd hp List.not_mem_nil) (by decide +kernel)

end SuploXau

end PaperTrade.Runner
