import PaperTrade.Worker.Accounts

/-!
# The consumer against the TP/SL pass

`process_signal_message` and `check_tpsl_hits` share one connection. The consumer reads, then works
inside `db.transaction()`, which is a lock on `_tx_depth` for it; the pass does not know the lock.
An interleaving ends as one of the two sequential orders does when the pass takes no turn inside the
consumer's transaction and the consumer does not enter it while the pass is under way, unless the
pass has nothing left to write (`consumer_tpsl_serial`, an instance of `interleave_serial`). Without
that the two disturb each other: under `staleClose` more is traded than was opened.

What the consumer reads before its transaction may be overtaken by the pass: the audit log is not
touched by it, and a position it has closed is not there any more when the handler looks, so the
fill price resolved for it does not matter.
-/

namespace PaperTrade.Worker

open PaperTrade.Runtime Coro

/-! ## Operations keep the nesting depth -/

/-- The nesting depth is the same before and after. -/
def SameDepth (c c' : Conn) : Prop := c'.txDepth = c.txDepth

section Depth

variable {α : Type}

lemma moves_ofExcept {rel : Conn → Conn → Prop} (r : Except PyError α) :
    Moves rel (Coro.ofExcept r) := trivial

lemma moves_pure {rel : Conn → Conn → Prop} (a : α) : Moves rel (pure a : Db α) := trivial

lemma moves_throw {rel : Conn → Conn → Prop} (e : PyError) : Moves rel (throw e : Db α) := trivial

/-- After a computation without suspension only its value matters. -/
lemma moves_ofExcept_bind {β : Type} {rel : Conn → Conn → Prop} {r : Except PyError α}
    {k : α → Db β} (hk : ∀ a, r = .ok a → Moves rel (k a)) :
    Moves rel (Coro.ofExcept r >>= k) := by
  cases r with
  | ok a => exact hk a rfl
  | error e => trivial

lemma moves_query {rel : Conn → Conn → Prop} (hrefl : ∀ c, rel c c) (read : Tables → α) :
    Moves rel (query read) := fun c => ⟨hrefl c, fun c' => ⟨hrefl c', trivial⟩⟩

lemma moves_suspend {rel : Conn → Conn → Prop} (hrefl : ∀ c, rel c c) :
    Moves rel Executor.suspend := fun c => ⟨hrefl c, trivial⟩

lemma moves_execute {rel : Conn → Conn → Prop} {stmt : Tables → Except PyError Tables}
    (h : ∀ c, rel c { c with
      current := (stmt c.current).toOption.getD c.current, inTransaction := true }) :
    Moves rel (execute stmt) := fun c => ⟨h c, trivial⟩

lemma moves_commit {rel : Conn → Conn → Prop} (hrefl : ∀ c, rel c c)
    (h : ∀ c : Conn, rel c c.commit) : Moves rel commit := by
  intro c
  refine ⟨hrefl c, ?_⟩
  change Moves rel (if c.txDepth = 0 then commitConn else pure ())
  split
  · exact fun c' => ⟨h c', trivial⟩
  · trivial

lemma sameDepth_refl (c : Conn) : SameDepth c c := rfl

lemma depth_execute (stmt : Tables → Except PyError Tables) : Moves SameDepth (execute stmt) :=
  moves_execute fun _ => rfl

lemma depth_query (read : Tables → α) : Moves SameDepth (query read) :=
  moves_query sameDepth_refl read

lemma depth_commit : Moves SameDepth commit := moves_commit sameDepth_refl fun _ => rfl

end Depth

lemma depth_registerAlpha (now alphaId : String) : Moves SameDepth (registerAlpha now alphaId) :=
  (depth_execute _).bind fun _ => depth_commit

lemma depth_logSignal (now signalId alphaId type : String) (payload : RawSignal) :
    Moves SameDepth (logSignal now signalId alphaId type payload) :=
  (depth_execute _).bind fun _ => depth_commit

lemma depth_markSignalProcessed (signalId : String) (error : Option PyError) :
    Moves SameDepth (markSignalProcessed signalId error) :=
  (depth_execute _).bind fun _ => depth_commit

lemma depth_closePosition (uuid positionId : String) (exitPrice : Option PyFloat)
    (reason closedAt : String) (closeMetadata : Text) (qty : Option PyFloat) :
    Moves SameDepth
      (closePosition uuid positionId exitPrice reason closedAt closeMetadata qty) := by
  refine (depth_query _).bind fun pos => ?_
  cases pos with
  | none => exact moves_pure ()
  | some pos =>
    refine (moves_ofExcept _).bind fun q => ?_
    split
    · exact moves_pure ()
    refine (moves_ofExcept _).bind fun o => (moves_ofExcept _).bind fun trade =>
      (depth_execute _).bind fun _ => ?_
    split
    · exact (depth_execute _).bind fun _ => depth_commit
    · exact (moves_ofExcept _).bind fun _ => (depth_execute _).bind fun _ => depth_commit

lemma depth_processOpen (self : Executor) (env : Env) (signal : OpenSignal)
    (fill : Option FillPrice) : Moves SameDepth (self.processOpen env signal fill) := by
  refine (depth_registerAlpha _ _).bind fun _ => (depth_query _).bind fun existing => ?_
  split
  · exact moves_throw _
  · exact ((depth_execute _).bind fun _ => depth_commit).bind fun _ => moves_pure _

lemma depth_processModify (signal : ModifySignal) :
    Moves SameDepth (Executor.processModify signal) := by
  refine (depth_query _).bind fun pos => ?_
  cases pos with
  | none => exact moves_throw _
  | some pos =>
    refine (moves_ofExcept _).bind fun _ => Moves.bind ?_ fun _ => moves_pure _
    have hwrite : ∀ merged : Option Text, Moves SameDepth
        (if signal.tp.isNone && signal.sl.isNone && merged.isNone then (pure () : Db Unit) else do
          execute fun t => .ok { t with
            positions := t.positions.modify signal.positionId
              (·.updated signal.tp signal.sl merged)
              (PositionRow.positionId_updated signal.tp signal.sl merged) }
          commit) := by
      intro merged
      split
      · exact moves_pure _
      · exact (depth_execute _).bind fun _ => depth_commit
    dsimp only [modifyPosition]
    split
    · exact hwrite none
    · exact (depth_query _).bind fun _ => (moves_ofExcept _).bind fun m => hwrite (some m)

lemma depth_processClose (self : Executor) (env : Env) (signal : CloseSignal)
    (fill : Option FillPrice) : Moves SameDepth (self.processClose env signal fill) := by
  refine (depth_query _).bind fun pos => ?_
  cases pos with
  | none => exact moves_throw _
  | some pos =>
    refine (moves_ofExcept _).bind fun q => (moves_ofExcept _).bind fun p => ?_
    exact (depth_closePosition _ _ _ _ _ _ _).bind fun _ =>
      (moves_ofExcept _).bind fun _ => moves_pure _

lemma depth_insertColumns (alphaId : String) (i : ℕ) (columns : List Json) :
    Moves SameDepth (insertColumns alphaId i columns) := by
  induction columns generalizing i with
  | nil => exact moves_pure ()
  | cons col rest ih =>
    exact (moves_ofExcept _).bind fun _ => (depth_execute _).bind fun _ => ih (i + 1)

lemma depth_processRegisterColumns (env : Env) (signal : RegisterColumnsSignal) :
    Moves SameDepth (Executor.processRegisterColumns env signal) := by
  unfold Executor.processRegisterColumns
  split
  · exact moves_throw _
  · refine (depth_registerAlpha _ _).bind fun _ => Moves.bind ?_ fun _ => moves_pure _
    exact (depth_execute _).bind fun _ => (depth_insertColumns _ _ _).bind fun _ => depth_commit
  · exact moves_throw _

lemma depth_processParsed (self : Executor) (env : Env) (data : RawSignal) (signal : Signal)
    (fill : Option FillPrice) : Moves SameDepth (processParsed self env data signal fill) := by
  refine (depth_logSignal _ _ _ _ _).bind fun _ => Moves.tryCatch ?_ fun e => ?_
  · refine Moves.bind ?_ fun o => (depth_markSignalProcessed _ _).bind fun _ => moves_pure _
    cases signal with
    | «open» signal => exact depth_processOpen self env signal fill
    | modify signal => exact depth_processModify signal
    | close signal => exact depth_processClose self env signal fill
    | registerColumns signal => exact depth_processRegisterColumns env signal
  · exact (depth_markSignalProcessed _ _).bind fun _ => moves_pure _

lemma depth_recordParseError (env : Env) (data : RawSignal) (e : PyError) :
    Moves SameDepth (recordParseError env data e) :=
  (depth_logSignal _ _ _ _ _).bind fun _ => depth_markSignalProcessed _ _

/-! ## The lock -/

lemma locked_of_sameDepth {c c' : Conn} (h : SameDepth c c') : c'.locked = c.locked := by
  unfold Conn.locked
  rw [h]

lemma sameDepth_trans (c₁ c₂ c₃ : Conn) (h₁ : SameDepth c₁ c₂) (h₂ : SameDepth c₂ c₃) :
    SameDepth c₁ c₃ := h₂.trans h₁

/-- A transaction takes the lock in its first turn and holds it. -/
lemma transaction_takes {α β : Type} {body : Db α} (hbody : Moves SameDepth body)
    (k : α → Db β) (hk : ∀ a, ∃ r, k a = .done r) (c : Conn) (hfree : c.locked = false) :
    Conn.locked ((transaction body >>= k).turn c).2 = true ∧
      Holds Conn.locked (transaction body >>= k) c := by
  have hdepth : c.txDepth = 0 := by simpa [Conn.locked] using hfree
  have hentered : c.enter.locked = true := by simp [Conn.locked, Conn.enter]
  have hinner : Moves SameDepth (do beginImmediate; let a ← body; commitConn; pure a : Db α) := by
    refine Moves.bind (fun c => ⟨rfl, trivial⟩) fun _ => hbody.bind fun a => ?_
    exact Moves.bind (fun c => ⟨rfl, trivial⟩) fun _ => trivial
  constructor
  · change Conn.locked (Coro.turn (Coro.sync _ _) c).2 = true
    simp only [Coro.turn, hdepth, if_true]
    rfl
  · refine Holds.bind ?_ fun a s' _ => ?_
    · change Holds Conn.locked _ c.enter
      simp only [hdepth, if_true]
      have hkeeps := hinner.mono fun _ _ => locked_of_sameDepth
      refine Holds.bind (Holds.attempt (Holds.of_moves hkeeps hentered)) fun r s' hrun => ?_
      have hs' : s'.locked = true := by
        have h := hinner.attempt.run sameDepth_refl sameDepth_trans c.enter
        rw [hrun] at h
        exact (locked_of_sameDepth h).trans hentered
      cases r with
      | ok a => trivial
      | error e => exact ⟨hs', trivial⟩
    · obtain ⟨r, hr⟩ := hk a
      rw [hr]
      trivial

/-! ## The pass -/

/-- What one operation of the pass does: a position is left as it is, is gone, or has lost its
quantity. -/
structure PassStep (c c' : Conn) : Prop where
  depth : SameDepth c c'
  signals : c'.current.signals = c.current.signals
  positions : ∀ id, c'.current.positions.find? id = none ∨
    c'.current.positions.find? id = c.current.positions.find? id ∨
    ∃ r, c'.current.positions.find? id = some r ∧ r.qty = none

lemma passStep_of_positions {c c' : Conn} (hdepth : c'.txDepth = c.txDepth)
    (hsignals : c'.current.signals = c.current.signals)
    (hpos : c'.current.positions = c.current.positions) : PassStep c c' :=
  ⟨hdepth, hsignals, fun id => .inr (.inl (by rw [hpos]))⟩

lemma passStep_refl (c : Conn) : PassStep c c := passStep_of_positions rfl rfl rfl

lemma passStep_trans (c₁ c₂ c₃ : Conn) (h₁ : PassStep c₁ c₂) (h₂ : PassStep c₂ c₃) :
    PassStep c₁ c₃ := by
  refine ⟨h₂.depth.trans h₁.depth, h₂.signals.trans h₁.signals, fun id => ?_⟩
  rcases h₂.positions id with hgone | hsame | hempty
  · exact .inl hgone
  · rw [hsame]
    exact h₁.positions id
  · exact .inr (.inr hempty)

/-- What is left of a whole quantity is dust, or it is not a number and the column keeps nothing of
it. -/
lemma real_rest {o : PyFloat} (h : ¬ (o - o).max 0 ≤ dust) : real ((o - o).max 0) = none := by
  cases o with
  | fin q =>
    refine absurd ?_ h
    simp only [PyFloat.sub_fin, sub_self, PyFloat.zero_eq, PyFloat.max_fin, max_self, dust,
      PyFloat.fin_le_fin]
    norm_num
  | nan => rfl
  | inf b => cases b <;> rfl

lemma pass_execute {stmt : Tables → Except PyError Tables}
    (h : ∀ c : Conn, PassStep c { c with
      current := (stmt c.current).toOption.getD c.current, inTransaction := true }) :
    Moves PassStep (execute stmt) := moves_execute h

lemma pass_commit : Moves PassStep commit :=
  moves_commit passStep_refl fun _ => passStep_of_positions rfl rfl rfl

lemma pass_insertTrade (trade : TradeRow) :
    Moves PassStep (execute fun t =>
      (insertUnique "trades.trade_id" t.trades trade).map fun r => { t with trades := r }) := by
  refine pass_execute fun c => ?_
  cases h : insertUnique "trades.trade_id" c.current.trades trade with
  | ok r => exact passStep_of_positions rfl rfl rfl
  | error e => exact passStep_of_positions rfl rfl rfl

lemma pass_erase (positionId : String) :
    Moves PassStep (execute fun t =>
      .ok { t with positions := t.positions.erase positionId }) := by
  refine pass_execute fun c => ⟨rfl, rfl, fun id => ?_⟩
  change Table.find? (c.current.positions.erase positionId) id = none ∨ _
  rw [Table.find?_erase]
  split
  · exact .inl rfl
  · rename_i hne
    refine .inr (.inl ?_)
    change Table.find? (c.current.positions.erase positionId) id = _
    rw [Table.find?_erase, if_neg hne]

lemma pass_reduce (positionId : String) {qty : PyFloat} (hqty : real qty = none)
    (metadata : Text) :
    Moves PassStep (execute fun t => .ok (t.reduce positionId qty metadata)) := by
  refine pass_execute fun c => ⟨rfl, rfl, fun id => ?_⟩
  have hfind := Table.find?_modify c.current.positions positionId (·.reduced qty metadata)
    (PositionRow.positionId_reduced qty metadata) id
  by_cases hid : id = positionId
  · rw [if_pos hid] at hfind
    cases hrow : c.current.positions.find? positionId with
    | none => exact .inl (hfind.trans (by rw [hrow]; rfl))
    | some r => exact .inr (.inr ⟨r.reduced qty metadata, hfind.trans (by rw [hrow]; rfl), hqty⟩)
  · rw [if_neg hid] at hfind
    exact .inr (.inl hfind)

lemma pass_closePosition (uuid positionId : String) (exitPrice : Option PyFloat)
    (reason closedAt : String) (closeMetadata : Text) :
    Moves PassStep
      (closePosition uuid positionId exitPrice reason closedAt closeMetadata none) := by
  refine (moves_query passStep_refl _).bind fun pos => ?_
  cases pos with
  | none => exact moves_pure ()
  | some pos =>
    -- with no quantity given, the whole quantity of the row is closed
    refine moves_ofExcept_bind fun q hq => ?_
    split
    · exact moves_pure ()
    refine moves_ofExcept_bind fun o ho => (moves_ofExcept _).bind fun trade =>
      (pass_insertTrade trade).bind fun _ => ?_
    have hqo : q = o := Except.ok.inj (hq.symm.trans ho)
    subst hqo
    split
    · exact (pass_erase positionId).bind fun _ => pass_commit
    · rename_i hrest
      exact (moves_ofExcept _).bind fun merged =>
        (pass_reduce positionId (real_rest hrest) merged).bind fun _ => pass_commit

lemma pass_checkPosition (ex : Executor) (env : Executor.TpslEnv) (pos : PositionRow) :
    Moves PassStep (ex.checkPosition env pos) := by
  unfold Executor.checkPosition
  cases env.price pos.symbol pos.side with
  | none => exact moves_pure _
  | some quote =>
  dsimp only
  cases Executor.tpslHit pos quote.price with
  | none => exact moves_pure _
  | some hit =>
  obtain ⟨reason, stop⟩ := hit
  have hclose := (pass_closePosition (env.uuid pos.positionId) pos.positionId
    (some (ex.tpslFill env pos quote).value) reason env.now
    (Executor.tpslMetadata reason stop quote (ex.tpslFill env pos quote))).bind
      fun _ => moves_pure (some (pos.positionId, reason, (ex.tpslFill env pos quote).value))
  dsimp only
  split
  · exact (moves_suspend passStep_refl).bind fun _ => hclose
  · exact hclose

lemma pass_checkPositions (ex : Executor) (env : Executor.TpslEnv) (positions : List PositionRow) :
    Moves PassStep (ex.checkPositions env positions) := by
  induction positions with
  | nil => exact moves_pure _
  | cons pos rest ih =>
    exact (pass_checkPosition ex env pos).bind fun _ => ih.bind fun _ => moves_pure _

/-- Every operation of the pass is a `PassStep`. -/
theorem pass_checkTpslHits (ex : Executor) (env : Executor.TpslEnv) :
    Moves PassStep (ex.checkTpslHits env) :=
  (moves_query passStep_refl _).bind fun positions => pass_checkPositions ex env positions

/-! ## The consumer -/

section Reads

variable {α β : Type} {rel : Conn → Conn → Prop} {locked : Conn → Bool}

lemma readThenLock_query {read : Tables → α} {k : α → Db β}
    (hstable : ∀ c c', rel c c' →
      ((k (read c.current)).run c').2 = ((k (read c'.current)).run c').2)
    (hk : ∀ a, ReadThenLock rel locked (k a)) : ReadThenLock rel locked (query read >>= k) :=
  .read _ hstable fun c => .read _ (fun _ _ _ => rfl) fun _ => hk (read c.current)

lemma readThenLock_suspend {k : Unit → Db β} (hk : ReadThenLock rel locked (k ())) :
    ReadThenLock rel locked (Executor.suspend >>= k) :=
  .read _ (fun _ _ _ => rfl) fun _ => hk

end Reads

/-- The position is missing or has no quantity: `process_close` raises whatever the fill price. -/
def Unclosable (t : Tables) (positionId : String) : Prop :=
  ∀ r, t.positions.find? positionId = some r → r.qty = none

lemma checkCloseQty_of_qty_none (signal : CloseSignal) {pos : PositionRow} (h : pos.qty = none) :
    ∃ e, Executor.checkCloseQty signal pos = .error e := by
  cases hc : Executor.checkCloseQty signal pos with
  | error e => exact ⟨e, rfl⟩
  | ok q =>
    obtain ⟨-, -, o, ho, -⟩ := checkCloseQty_ok signal hc
    rw [h] at ho
    cases ho

/-- Sequential composition after the same first part. -/
lemma run_bind_congr {α β : Type} {p : Db α} {k k' : α → Db β} {c : Conn}
    (h : ∀ a, (p.run c).1 = .ok a → (k a).run (p.run c).2 = (k' a).run (p.run c).2) :
    (p >>= k).run c = (p >>= k').run c := by
  rw [Coro.run_bind, Coro.run_bind]
  cases hp : p.run c with
  | mk r c' =>
    cases r with
    | ok a => simpa only [hp, forall_const] using h a (by rw [hp])
    | error e => rfl

section Fill

variable {ex : Executor} {env : Env} {data : RawSignal} {signal : CloseSignal} {c : Conn}

lemma processClose_fill (h : Unclosable c.current signal.positionId)
    (fill fill' : Option FillPrice) :
    (ex.processClose env signal fill).run c = (ex.processClose env signal fill').run c := by
  refine run_bind_congr fun pos hpos => ?_
  cases pos with
  | none => rfl
  | some pos =>
    obtain ⟨e, he⟩ := checkCloseQty_of_qty_none signal (h pos (Except.ok.inj hpos))
    simp only [he]
    rfl

/-- The positions are the same before and after. -/
def SamePositions (c c' : Conn) : Prop := c'.current.positions = c.current.positions

lemma positions_logSignal (now signalId alphaId type : String) (payload : RawSignal) :
    ((logSignal now signalId alphaId type payload).run c).2.current.positions =
      c.current.positions := by
  have hmoves : Moves SamePositions (logSignal now signalId alphaId type payload) :=
    Moves.bind (moves_execute fun _ => rfl) fun _ => moves_commit (fun _ => rfl) fun _ => rfl
  refine hmoves.run ?_ ?_ c
  · exact fun _ => rfl
  · exact fun _ _ _ h₁ h₂ => Eq.trans h₂ h₁

lemma run_tryCatch_congr {α : Type} {p p' : Db α} {handler : PyError → Db α}
    (h : p.run c = p'.run c) : (tryCatch p handler).run c = (tryCatch p' handler).run c := by
  change (p.attempt >>= _ : Db α).run c = (p'.attempt >>= _ : Db α).run c
  rw [Coro.run_bind, Coro.run_bind, Coro.run_attempt, Coro.run_attempt, h]

lemma processParsed_fill (h : Unclosable c.current signal.positionId)
    (fill fill' : Option FillPrice) :
    (processParsed ex env data (.close signal) fill).run c =
      (processParsed ex env data (.close signal) fill').run c := by
  refine run_bind_congr fun _ _ => run_tryCatch_congr ?_
  have hkeep : Unclosable ((logSignal env.now data.signalIdOr data.alphaIdOr data.typeOr data).run
      c).2.current signal.positionId := by
    unfold Unclosable
    rw [positions_logSignal]
    exact h
  rw [Coro.run_bind, Coro.run_bind]
  simp only [handle]
  rw [processClose_fill hkeep fill fill']

/-- Two bodies that run alike on the current contents make transactions that run alike. -/
lemma run_transaction_congr {α : Type} {body body' : Db α}
    (h : ∀ c', c'.current = c.current → body.run c' = body'.run c') :
    (transaction body).run c = (transaction body').run c := by
  simp only [transaction, Coro.run_sync]
  by_cases hdepth : c.txDepth = 0
  · have hinner : (do beginImmediate; let a ← body; commitConn; pure a : Db α).run c.enter =
        (do beginImmediate; let a ← body'; commitConn; pure a : Db α).run c.enter := by
      refine run_bind_congr fun _ _ => ?_
      rw [Coro.run_bind, Coro.run_bind, h (beginImmediate.run c.enter).2 rfl]
    simp only [hdepth, if_true]
    rw [Coro.run_bind, Coro.run_bind, Coro.run_attempt, Coro.run_attempt, hinner]
  · have hinner : (body >>= fun a => pure a : Db α).run c.enter =
        (body' >>= fun a => pure a : Db α).run c.enter := by
      rw [Coro.run_bind, Coro.run_bind, h c.enter rfl]
    simp only [hdepth, if_false]
    rw [Coro.run_bind, Coro.run_bind, Coro.run_attempt, Coro.run_attempt, hinner]

lemma transaction_fill (h : Unclosable c.current signal.positionId)
    (fill fill' : Option FillPrice) :
    (transaction (processParsed ex env data (.close signal) fill)).run c =
      (transaction (processParsed ex env data (.close signal) fill')).run c :=
  run_transaction_congr fun _ hc' => processParsed_fill (hc' ▸ h) fill fill'

end Fill

section Consumer

variable (ex : Executor) (env : Env) (data : RawSignal)

lemma takes_processParsed (signal : Signal) (fill : Option FillPrice) (c : Conn)
    (hfree : c.locked = false) :
    Conn.locked ((transaction (processParsed ex env data signal fill)).turn c).2 = true ∧
      Holds Conn.locked (transaction (processParsed ex env data signal fill)) c := by
  have h := transaction_takes (depth_processParsed ex env data signal fill) pure
    (fun a => ⟨.ok a, rfl⟩) c hfree
  rwa [Coro.bind_pure] at h

/-- The fill price of a CLOSE from the row that was read. -/
def closeFillOf (service : FillService) (signal : CloseSignal) :
    Option PositionRow → Db (Option FillPrice)
  | some pos => resolve service (closeRequest signal pos)
  | none => pure none

lemma readThenLock_resolveFill (signal : Signal) :
    ReadThenLock PassStep Conn.locked (resolveFill env signal >>= fun fill =>
      transaction (processParsed ex env data signal fill)) := by
  have hlock : ∀ fill, ReadThenLock PassStep Conn.locked
      (transaction (processParsed ex env data signal fill)) :=
    fun fill => .lock _ fun c hfree => takes_processParsed ex env data signal fill c hfree
  cases hservice : env.fill with
  | none =>
    simp only [resolveFill, hservice]
    exact hlock none
  | some service =>
  cases signal with
  | modify _ =>
    simp only [resolveFill, hservice]
    exact hlock none
  | registerColumns _ =>
    simp only [resolveFill, hservice]
    exact hlock none
  | «open» signal =>
    simp only [resolveFill, hservice]
    exact readThenLock_suspend (k := fun _ => transaction (processParsed ex env data (.open signal)
      ((service (openRequest signal)).map .resolved))) (hlock _)
  | close signal =>
    simp only [resolveFill, hservice]
    let k : Option PositionRow → Db (Option Outcome) := fun pos =>
      closeFillOf service signal pos >>= fun fill =>
        transaction (processParsed ex env data (.close signal) fill)
    have hrun : ∀ pos, ∃ fill, ∀ c, (k pos).run c =
        (transaction (processParsed ex env data (.close signal) fill)).run c := by
      intro pos
      cases pos with
      | none => exact ⟨none, fun c => rfl⟩
      | some pos => exact ⟨(service (closeRequest signal pos)).map .resolved, fun c => rfl⟩
    change ReadThenLock PassStep Conn.locked (getPosition signal.positionId >>= k)
    refine readThenLock_query (fun c c' hstep => ?_) fun pos => ?_
    · rcases hstep.positions signal.positionId with hgone | hsame | ⟨r, hr, hqty⟩
      · obtain ⟨fill, hfill⟩ := hrun (c.current.positions.find? signal.positionId)
        obtain ⟨fill', hfill'⟩ := hrun (c'.current.positions.find? signal.positionId)
        rw [hfill, hfill', transaction_fill (fun r hr => ?_) fill fill']
        rw [hgone] at hr
        cases hr
      · rw [hsame]
      · obtain ⟨fill, hfill⟩ := hrun (c.current.positions.find? signal.positionId)
        obtain ⟨fill', hfill'⟩ := hrun (c'.current.positions.find? signal.positionId)
        rw [hfill, hfill', transaction_fill (fun r' hr' => ?_) fill fill']
        rw [hr] at hr'
        cases hr'
        exact hqty
    · cases pos with
      | none => exact hlock none
      | some pos =>
        exact readThenLock_suspend (k := fun _ => transaction (processParsed ex env data
          (.close signal) ((service (closeRequest signal pos)).map .resolved))) (hlock _)

omit ex env in
lemma readThenLock_isDuplicate {α : Type} {k : Bool → Db α}
    (hk : ∀ duplicate, ReadThenLock PassStep Conn.locked (k duplicate)) :
    ReadThenLock PassStep Conn.locked (isDuplicate data >>= k) := by
  unfold isDuplicate
  split
  · refine readThenLock_query (fun c c' hstep => ?_) hk
    simp only [isProcessed, hstep.signals]
  · exact hk false

/-- The consumer reads, then takes the lock; the pass does not spoil what it has read. -/
theorem readThenLock_processSignalMessage :
    ReadThenLock PassStep Conn.locked (processSignalMessage ex env data) := by
  refine readThenLock_isDuplicate data fun duplicate => ?_
  cases duplicate with
  | true => exact .done _
  | false =>
    simp only [Bool.false_eq_true, if_false]
    cases parseSignal data with
    | error e =>
      exact .lock _ fun c hfree =>
        transaction_takes (depth_recordParseError env data e) _ (fun _ => ⟨_, rfl⟩) c hfree
    | ok signal => exact readThenLock_resolveFill ex env data signal

end Consumer

/-! ## The two together -/

/-- The database after a message and a pass under a schedule. -/
def interleaved (ex : Executor) (env : Env) (data : RawSignal) (tpsl : Executor.TpslEnv)
    (s : Tables) (sched : List Bool) : Tables :=
  (interleave sched (processSignalMessage ex env data) (ex.checkTpslHits tpsl)
    (.idle s)).2.2.committed

/-- An undisturbed interleaving of a message and a pass ends as one of the two sequential orders
does. In particular a position that goes leaves a trade row, and no more is traded of an open
position than was open. -/
theorem consumer_tpsl_serial (ex : Executor) (env : Env) (data : RawSignal)
    (tpsl : Executor.TpslEnv) (s : Tables) (sched : List Bool)
    (hundisturbed : Undisturbed Conn.locked false sched (processSignalMessage ex env data)
      (ex.checkTpslHits tpsl) (.idle s))
    (hcomplete : Complete sched (processSignalMessage ex env data) (ex.checkTpslHits tpsl)
      (.idle s)) :
    Sequential ex env data tpsl s (interleaved ex env data tpsl s sched) ∧
      (∀ id, s.positions.contains id = true →
        (interleaved ex env data tpsl s sched).positions.contains id = false →
        ∃ t ∈ (interleaved ex env data tpsl s sched).trades.rows,
          t.tradeId = id ∧ t.positionId = id) ∧
      ∀ id o, OpenQty s id o → Merges s data id →
        traded (interleaved ex env data tpsl s sched) id ≤ traded s id + o := by
  have hserial := interleave_serial passStep_refl passStep_trans
    (fun _ _ h => locked_of_sameDepth h.depth) rfl
    (readThenLock_processSignalMessage ex env data) (pass_checkTpslHits ex tpsl) hundisturbed
    hcomplete
  have hseq : Sequential ex env data tpsl s (interleaved ex env data tpsl s sched) :=
    hserial.imp (congrArg Conn.committed) (congrArg Conn.committed)
  exact ⟨hseq, hseq.accounts⟩

/-- A position of ten with a take-profit at 110. -/
def tenStopped : Tables :=
  { Tables.empty with positions := ⟨[{ tenOpen with tp := some (.fin 110) }], by simp⟩ }

/-- The price is beyond the take-profit. -/
def beyondTp : Executor.TpslEnv where
  now := "2024-01-01T01:00:00Z"
  uuid := fun id => id
  price := fun _ _ => some ⟨.fin 120, "last", false⟩

/-- Four of the ten are closed by hand. -/
def closeFour : Delivery := closeTen "close-1" (some (.chars "4"))

/-- The pass runs between the duplicate check of the message and its transaction. -/
def passBetween : List Bool := List.replicate 2 true ++ List.replicate 12 false ++
  List.replicate 24 true

theorem consumer_tpsl_serial_passBetween :
    Sequential {} closeFour.env closeFour.data beyondTp tenStopped
        (interleaved {} closeFour.env closeFour.data beyondTp tenStopped passBetween) ∧
      ∃ t ∈ (interleaved {} closeFour.env closeFour.data beyondTp tenStopped
        passBetween).trades.rows, t.tradeId = "p1" ∧ t.positionId = "p1" := by
  obtain ⟨hseq, hlost, -⟩ := consumer_tpsl_serial {} closeFour.env closeFour.data beyondTp
    tenStopped passBetween (undisturbed_of_check (by decide +kernel)) (by decide +kernel)
  exact ⟨hseq, hlost "p1" (by decide +kernel) (by decide +kernel)⟩

/-- The pass reads the position, the message closes four of it, and the pass closes the ten that it
has read. -/
def staleClose : List Bool := List.replicate 4 false ++ List.replicate 24 true ++
  List.replicate 12 false

/-- A position of ten is traded for fourteen, as neither order would do. -/
theorem staleClose_not_sequential :
    Complete staleClose (processSignalMessage {} closeFour.env closeFour.data)
        (Executor.checkTpslHits {} beyondTp) (.idle tenStopped) ∧
      traded (interleaved {} closeFour.env closeFour.data beyondTp tenStopped staleClose) "p1" =
        14 ∧
      ¬ Sequential {} closeFour.env closeFour.data beyondTp tenStopped
        (interleaved {} closeFour.env closeFour.data beyondTp tenStopped staleClose) := by
  have hstale : traded (interleaved {} closeFour.env closeFour.data beyondTp tenStopped
      staleClose) "p1" = 14 := by decide +kernel
  refine ⟨by decide +kernel, hstale, ?_⟩
  rintro (h | h)
  · rw [h] at hstale
    exact absurd hstale (by decide +kernel)
  · rw [h] at hstale
    exact absurd hstale (by decide +kernel)

end PaperTrade.Worker
