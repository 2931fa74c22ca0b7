import PaperTrade.Runner.SuploXau

/-!
# The signals of the Supertrend strategy

Over a run of scans the records of the signals are pairwise different as long as no position has
its trailing level published twice: an OPEN is the only one of its candle, a position is closed
once and its id does not come back. `Inv b` is the invariant, where `b` is the candle from which on
no OPEN has been sent; `Good b` adds what the clock of the strategy says between two scans.
-/

namespace PaperTrade.Runner

open PaperTrade.Runtime Dispatcher

/-! ## Dispatches that return -/

/-- Where the lease is valid the append is acknowledged. -/
def Acknowledges (env : ℕ → DispatchEnv) : Prop :=
  ∀ n, (env n).leaseValid = true → (env n).append = .acknowledged

section Emit

variable {σ : Type} {digest : Logical → String} {env : ℕ → DispatchEnv}

lemma appendOf_acknowledged {e : DispatchEnv} {call : Call}
    (he : e.leaseValid = true → e.append = .acknowledged)
    (htime : encodable (call.timestamp e.now) = true) (hlease : e.leaseValid = true) :
    appendOf e call = .acknowledged := by
  rw [appendOf, if_pos htime, he hlease]

lemma dispatch_not_raised {d : Dispatcher} {e : DispatchEnv} {call : Call}
    (happend : e.leaseValid = true → appendOf e call = .acknowledged) (id : String) :
    (d.dispatch digest e call).1 ≠ .raised id := by
  rcases dispatch_cases digest d e call with ⟨-, heq⟩ | ⟨-, -, heq⟩ |
    ⟨hlease, -, hlost, -⟩ | ⟨hlease, -, -, r, -, hr, heq⟩
  · rw [heq]
    exact Reply.noConfusion
  · rw [heq]
    exact Reply.noConfusion
  · rw [happend hlease] at hlost
    cases hlost
  · rw [heq]
    exact hr (happend hlease) id

lemma run_emitSignal (henv : Acknowledges env) {call : Call}
    (htime : ∀ now, encodable (call.timestamp now) = true) (w : σ × Outbox) :
    (emitSignal digest env call).run w = (.ok (), (w.1, w.2.send digest (w.2.next env) call)) := by
  have hnot : ∀ id, (w.2.dispatcher.dispatch digest (w.2.next env) call).1 ≠ .raised id :=
    dispatch_not_raised (appendOf_acknowledged (henv w.2.history.length) (htime _))
  simp only [emitSignal, Coro.run_sync]
  cases h : (w.2.dispatcher.dispatch digest (w.2.next env) call).1 with
  | raised id => exact absurd h (hnot id)
  | dropped => rfl
  | skipped id => rfl
  | published id => rfl

lemma faithful_emitted (henv : Acknowledges env) {call : Call}
    (htime : ∀ now, encodable (call.timestamp now) = true) {d : Dispatcher} {o : Outbox}
    (h : o.Faithful digest d) : (o.send digest (o.next env) call).Faithful digest d := by
  refine h.send fun hlease hlost => ?_
  have happend : appendOf (o.next env) call = .acknowledged :=
    appendOf_acknowledged (henv o.history.length) (htime _) hlease
  rw [happend] at hlost
  cases hlost

end Emit

/-! ## Position ids -/

namespace SuploXau

variable (x : SuploXau) (uuid5 : String → String)

/-- The id that a position opened at a candle gets. -/
def idAt (side : String) (t : ℤ) : String := uuid5 (x.positionName side t)

/-- The id is not one that a candle from `b` on gives. -/
def Known (b : ℤ) (id : String) : Prop := ∀ side t, b ≤ t → id ≠ x.idAt uuid5 side t

variable {x uuid5}

lemma positionName_candle {side side' : String} {t t' : ℤ}
    (h : x.positionName side t = x.positionName side' t') : t = t' := by
  simp only [positionName, String.append_assoc, String.append_right_inj] at h
  exact int_of_bar (s := side) (t := side') (by simpa only [String.append_assoc] using h)

lemma Known.mono {b b' : ℤ} {id : String} (h : x.Known uuid5 b id) (hle : b ≤ b') :
    x.Known uuid5 b' id := fun side t ht => h side t (hle.trans ht)

lemma known_idAt (huuid : Function.Injective uuid5) {b t : ℤ} (ht : t < b) (side : String) :
    x.Known uuid5 b (x.idAt uuid5 side t) := by
  intro side' t' ht' heq
  have := positionName_candle (huuid heq)
  omega

/-! ## What has been sent -/

@[simp] lemma type_openCall (p : SuploPosition) : (x.openCall p).logical.type = "OPEN" := rfl

@[simp] lemma type_closeCall (id reason : String) (price : Option PyFloat) (t : ℤ) :
    (x.closeCall id reason price t).logical.type = "CLOSE" := rfl

@[simp] lemma type_modifyCall (id : String) (target : PyFloat) :
    (x.modifyCall id target).logical.type = "MODIFY" := rfl

/-- A signal of the strategy that has been sent, with the positions that are open now. -/
inductive Sent (x : SuploXau) (uuid5 : String → String) (b : ℤ)
    (positions : Table SuploPosition.positionId) : Call → Prop
  | opened (p : SuploPosition) (hcandle : p.entryCandleOpenMs < b) :
      Sent x uuid5 b positions (x.openCall p)
  | closed (id reason : String) (price : Option PyFloat) (t : ℤ) (hknown : x.Known uuid5 b id)
      (hgone : positions.contains id = false) :
      Sent x uuid5 b positions (x.closeCall id reason price t)
  | modified (id : String) (target : PyFloat) (hknown : x.Known uuid5 b id)
      (hemitted : ∀ p ∈ positions.rows, p.positionId = id → p.tpEmitted ≠ none) :
      Sent x uuid5 b positions (x.modifyCall id target)

/-- No OPEN has been sent for a candle from `b` on, and the records of the signals are pairwise
different. -/
structure Inv (x : SuploXau) (uuid5 : String → String) (b : ℤ)
    (positions : Table SuploPosition.positionId) (history : List Dispatcher.Event) : Prop where
  known : ∀ p ∈ positions.rows, x.Known uuid5 b p.positionId
  sent : ∀ c ∈ calls history, Sent x uuid5 b positions c
  distinct : (calls history).Pairwise fun c c' => c.logical ≠ c'.logical

variable {b : ℤ} {positions : Table SuploPosition.positionId} {history : List Dispatcher.Event}

lemma calls_snoc (history : List Dispatcher.Event) (e : DispatchEnv) (call : Call) :
    calls (history ++ [.dispatch e call]) = calls history ++ [call] :=
  List.filterMap_append ..

lemma Sent.mono {b' : ℤ} {c : Call} (h : Sent x uuid5 b positions c) (hle : b ≤ b') :
    Sent x uuid5 b' positions c := by
  cases h with
  | opened p hcandle => exact .opened p (hcandle.trans_le hle)
  | closed id reason price t hknown hgone => exact .closed id reason price t (hknown.mono hle) hgone
  | modified id target hknown hemitted => exact .modified id target (hknown.mono hle) hemitted

lemma Inv.mono {b' : ℤ} (h : Inv x uuid5 b positions history) (hle : b ≤ b') :
    Inv x uuid5 b' positions history :=
  ⟨fun p hp => (h.known p hp).mono hle, fun c hc => (h.sent c hc).mono hle, h.distinct⟩

/-- One more signal, with a record of its own. -/
lemma Inv.snoc {positions' : Table SuploPosition.positionId} {b' : ℤ} {call : Call}
    (h : Inv x uuid5 b positions history) (e : DispatchEnv)
    (hknown : ∀ p ∈ positions'.rows, x.Known uuid5 b' p.positionId)
    (hsent : ∀ c, Sent x uuid5 b positions c → Sent x uuid5 b' positions' c)
    (hcall : Sent x uuid5 b' positions' call)
    (hnew : ∀ c, Sent x uuid5 b positions c → c.logical ≠ call.logical) :
    Inv x uuid5 b' positions' (history ++ [.dispatch e call]) := by
  refine ⟨hknown, fun c hc => ?_, ?_⟩
  · rw [calls_snoc, List.mem_append, List.mem_singleton] at hc
    rcases hc with hc | rfl
    · exact hsent c (h.sent c hc)
    · exact hcall
  · rw [calls_snoc, List.pairwise_append]
    refine ⟨h.distinct, List.pairwise_singleton _ _, fun c hc c' hc' => ?_⟩
    rw [List.mem_singleton.mp hc']
    exact hnew c (h.sent c hc)

/-- Fewer positions are open, or their ids and `tp_emitted` are kept. -/
lemma Sent.of_positions {positions' : Table SuploPosition.positionId} {c : Call}
    (h : Sent x uuid5 b positions c)
    (hmem : ∀ q ∈ positions'.rows, ∃ p ∈ positions.rows,
      q.positionId = p.positionId ∧ (p.tpEmitted ≠ none → q.tpEmitted ≠ none)) :
    Sent x uuid5 b positions' c := by
  cases h with
  | opened p hcandle => exact .opened p hcandle
  | closed id reason price t hknown hgone =>
    refine .closed id reason price t hknown ((Table.not_contains_iff _ _).mpr fun q hq => ?_)
    obtain ⟨p, hp, hid, -⟩ := hmem q hq
    rw [hid]
    exact (Table.not_contains_iff _ _).mp hgone p hp
  | modified id target hknown hemitted =>
    refine .modified id target hknown fun q hq hqid => ?_
    obtain ⟨p, hp, hid, hkeep⟩ := hmem q hq
    exact hkeep (hemitted p hp (hid ▸ hqid))

lemma mem_modify_kept (positions : Table SuploPosition.positionId) (id : String) {f : SuploPosition → SuploPosition}
    (hf : ∀ p, (f p).positionId = p.positionId)
    (hemitted : ∀ p, p.tpEmitted ≠ none → (f p).tpEmitted ≠ none) :
    ∀ q ∈ (positions.modify id f hf).rows, ∃ p ∈ positions.rows,
      q.positionId = p.positionId ∧ (p.tpEmitted ≠ none → q.tpEmitted ≠ none) := by
  intro q hq
  rcases (Table.mem_modify _ _ _ _ _).mp hq with ⟨hq, -⟩ | ⟨p, hp, -, rfl⟩
  · exact ⟨q, hq, rfl, fun h => h⟩
  · exact ⟨p, hp, hf p, hemitted p⟩

/-- An assignment to positions that keeps their ids and `tp_emitted`. -/
lemma Inv.update (id : String) {f : SuploPosition → SuploPosition}
    (h : Inv x uuid5 b positions history) (hf : ∀ p, (f p).positionId = p.positionId)
    (hemitted : ∀ p, p.tpEmitted ≠ none → (f p).tpEmitted ≠ none) :
    Inv x uuid5 b (positions.modify id f hf) history := by
  have hmem := mem_modify_kept positions id hf hemitted
  refine ⟨fun q hq => ?_, fun c hc => (h.sent c hc).of_positions hmem, h.distinct⟩
  obtain ⟨p, hp, hid, -⟩ := hmem q hq
  rw [hid]
  exact h.known p hp

lemma Inv.close {p : SuploPosition} (h : Inv x uuid5 b positions history) (hp : p ∈ positions.rows)
    (e : DispatchEnv) (reason : String) (price : Option PyFloat) (t : ℤ) :
    Inv x uuid5 b (positions.erase p.positionId)
      (history ++ [.dispatch e (x.closeCall p.positionId reason price t)]) := by
  have hmem : ∀ q ∈ (positions.erase p.positionId).rows, ∃ p ∈ positions.rows,
      q.positionId = p.positionId ∧ (p.tpEmitted ≠ none → q.tpEmitted ≠ none) :=
    fun q hq => ⟨q, ((positions.mem_erase _ _).mp hq).1, rfl, fun h => h⟩
  refine h.snoc e (fun q hq => h.known q ((positions.mem_erase _ _).mp hq).1)
    (fun c hc => hc.of_positions hmem) (.closed _ _ _ _ (h.known p hp) ?_) fun c hc heq => ?_
  · exact (Table.not_contains_iff _ _).mpr fun q hq => ((positions.mem_erase _ _).mp hq).2
  · cases hc with
    | opened _ _ => exact absurd (congrArg Logical.type heq) (by simp)
    | modified _ _ _ _ => exact absurd (congrArg Logical.type heq) (by simp)
    | closed id _ _ _ _ hgone =>
      have hid : id = p.positionId := Json.str.inj (congrArg Logical.positionId heq)
      exact (Table.not_contains_iff _ _).mp hgone p hp hid.symm

lemma Inv.modify {p : SuploPosition} (h : Inv x uuid5 b positions history)
    (hp : p ∈ positions.rows) (hfirst : p.tpEmitted = none) (e : DispatchEnv) (target : PyFloat) :
    Inv x uuid5 b (positions.modify p.positionId (withEmitted target) fun _ => rfl)
      (history ++ [.dispatch e (x.modifyCall p.positionId target)]) := by
  have hmem := mem_modify_kept positions p.positionId
    (f := withEmitted target) (fun _ => rfl) fun _ _ h => nomatch h
  refine h.snoc e (fun q hq => ?_) (fun c hc => hc.of_positions hmem)
    (.modified _ _ (h.known p hp) ?_) fun c hc heq => ?_
  · obtain ⟨p', hp', hid, -⟩ := hmem q hq
    rw [hid]
    exact h.known p' hp'
  · intro q hq hqid
    rcases (Table.mem_modify _ _ _ _ _).mp hq with ⟨-, hne⟩ | ⟨p', -, -, rfl⟩
    · exact absurd hqid hne
    · exact Option.some_ne_none target
  · cases hc with
    | opened _ _ => exact absurd (congrArg Logical.type heq) (by simp)
    | closed _ _ _ _ _ _ => exact absurd (congrArg Logical.type heq) (by simp)
    | modified id _ _ hemitted =>
      have hid : id = p.positionId := Json.str.inj (congrArg Logical.positionId heq)
      exact hemitted p hp hid.symm hfirst

/-- The OPEN of the candle `t`, sent with no position open. -/
lemma Inv.open {p : SuploPosition} {side : String} {t : ℤ} (huuid : Function.Injective uuid5)
    (h : Inv x uuid5 t positions history) (hempty : positions.rows = [])
    (hid : p.positionId = x.idAt uuid5 side t) (hcandle : p.entryCandleOpenMs = t)
    (e : DispatchEnv) :
    Inv x uuid5 (t + 1) (positions.insertOrIgnore p)
      (history ++ [.dispatch e (x.openCall p)]) := by
  have hrows : (positions.insertOrIgnore p).rows = [p] := by
    rw [Table.rows_insertOrIgnore_of_not_contains, hempty]
    · rfl
    · simp [Table.contains, hempty]
  have hfresh : ∀ id, x.Known uuid5 t id → id ≠ p.positionId := fun id hknown heq =>
    hknown side t le_rfl (heq.trans hid)
  refine h.snoc e (fun q hq => ?_) (fun c hc => ?_) (.opened p (by omega)) fun c hc heq => ?_
  · rw [hrows, List.mem_singleton] at hq
    rw [hq, hid]
    exact known_idAt huuid (by omega) side
  · cases hc with
    | opened p' hcandle' => exact .opened p' (by omega)
    | closed id reason price t' hknown hgone =>
      refine .closed id reason price t' (hknown.mono (by omega)) ?_
      refine (Table.not_contains_iff _ _).mpr fun q hq => ?_
      rw [hrows, List.mem_singleton] at hq
      rw [hq]
      exact (hfresh id hknown).symm
    | modified id target hknown hemitted =>
      refine .modified id target (hknown.mono (by omega)) fun q hq hqid => ?_
      rw [hrows, List.mem_singleton] at hq
      exact absurd (hq ▸ hqid).symm (hfresh id hknown)
  · cases hc with
    | closed _ _ _ _ _ _ => exact absurd (congrArg Logical.type heq) (by simp)
    | modified _ _ _ _ => exact absurd (congrArg Logical.type heq) (by simp)
    | opened p' hcandle' =>
      have hsame : p'.entryCandleOpenMs = p.entryCandleOpenMs :=
        Json.int.inj (congrArg Logical.signalCandleOpenMs heq)
      omega

/-! ## One scan -/

/-- `Inv` of a strategy and its outbox, which began with the dispatcher `d`. -/
structure InvAt (x : SuploXau) (uuid5 : String → String) (digest : Logical → String)
    (d : Dispatcher) (b : ℤ) (w : SuploState × Outbox) : Prop where
  inv : Inv x uuid5 b w.1.positions w.2.history
  faithful : w.2.Faithful digest d

lemma InvAt.mono {digest : Logical → String} {d : Dispatcher} {b' : ℤ} {w : SuploState × Outbox}
    (h : InvAt x uuid5 digest d b w) (hle : b ≤ b') : InvAt x uuid5 digest d b' w :=
  ⟨h.inv.mono hle, h.faithful⟩

/-- The candles seen and awaited are the same. -/
def SameClock (s s' : SuploState) : Prop :=
  s'.last15mOpen = s.last15mOpen ∧ s'.pending15mOpen = s.pending15mOpen

lemma existingPosition_mem {s : SuploState} {p : SuploPosition}
    (h : existingPosition s = some p) : p ∈ s.positions.rows := by
  obtain ⟨tail, htail⟩ := List.head?_eq_some_iff.mp h
  rw [htail]
  exact List.mem_cons_self ..

/-- No MODIFY is sent for a position that has its level published already. -/
def PublishesOnce (x : SuploXau) (s : SuploState) (c : Candle) : Prop :=
  ∀ p ∈ existingPosition s, ∀ target ∈ (x.trail p c).level?, Moved p target → p.tpEmitted = none

instance (s : SuploState) (c : Candle) : Decidable (x.PublishesOnce s c) :=
  inferInstanceAs (Decidable (∀ p ∈ existingPosition s, ∀ target ∈ (x.trail p c).level?, _ → _))

section Scan

variable {digest : Logical → String} {env : ℕ → DispatchEnv} {d : Dispatcher}
  (henv : Acknowledges env)
include henv

lemma run_closePosition (id reason : String) (price : Option PyFloat) (t : ℤ)
    (w : SuploState × Outbox) :
    (x.closePosition digest env id reason price t).run w =
      (.ok (), ({ w.1 with positions := w.1.positions.erase id },
        w.2.send digest (w.2.next env) (x.closeCall id reason price t))) := by
  rw [closePosition, Coro.run_bind_ok (run_emitSignal henv (fun _ => rfl) w)]
  rfl

lemma closePosition_inv {b : ℤ} {p : SuploPosition} {w : SuploState × Outbox}
    (h : InvAt x uuid5 digest d b w) (hp : p ∈ w.1.positions.rows) (reason : String)
    (price : Option PyFloat) (t : ℤ) :
    ∃ w', (x.closePosition digest env p.positionId reason price t).run w = (.ok (), w') ∧
      InvAt x uuid5 digest d b w' ∧ SameClock w.1 w'.1 :=
  ⟨_, run_closePosition henv .., ⟨h.inv.close hp .., faithful_emitted henv (fun _ => rfl) h.faithful⟩,
    rfl, rfl⟩

/-- `_manage_on_bar` keeps the invariant when it publishes the first level of the position. -/
lemma manageOnBar_inv {b : ℤ} {c : Candle} {w : SuploState × Outbox} (h : InvAt x uuid5 digest d b w)
    (honce : x.PublishesOnce w.1 c) :
    ∃ w', (x.manageOnBar digest env c).run w = (.ok (), w') ∧ InvAt x uuid5 digest d b w' ∧
      SameClock w.1 w'.1 := by
  simp only [manageOnBar, Coro.run_bind, run_getState]
  cases hpos : existingPosition w.1 with
  | none => exact ⟨w, rfl, h, rfl, rfl⟩
  | some p =>
  have hp := existingPosition_mem hpos
  dsimp only
  cases htrail : x.trail p c with
  | flat =>
    have hupdated := h.inv.update p.positionId (f := withPeak 0) (fun _ => rfl) fun _ he => he
    exact ⟨_, rfl, ⟨hupdated, h.faithful⟩, rfl, rfl⟩
  | hit target => exact closePosition_inv henv h hp ..
  | trailing peak target =>
  have hfirst : Moved p target → p.tpEmitted = none :=
    honce p hpos target (by rw [htrail]; rfl)
  have hupdated : Inv x uuid5 b
      (w.1.positions.modify p.positionId (withTarget peak target) fun _ => rfl) w.2.history :=
    h.inv.update _ (f := withTarget peak target) (fun _ => rfl) fun _ he => he
  simp only [Coro.run_bind, run_modifyState]
  by_cases hmoved : Moved p target
  · have hp' : withTarget peak target p ∈
        (w.1.positions.modify p.positionId (withTarget peak target) fun _ => rfl).rows :=
      (Table.mem_modify _ _ _ _ _).mpr (.inr ⟨p, hp, rfl, rfl⟩)
    rw [if_pos hmoved, Coro.run_bind_ok (run_emitSignal henv (fun _ => rfl) _)]
    exact ⟨_, rfl, ⟨hupdated.modify hp' (hfirst hmoved) _ _,
      faithful_emitted henv (fun _ => rfl) h.faithful⟩, rfl, rfl⟩
  · rw [if_neg hmoved]
    exact ⟨_, rfl, ⟨hupdated, h.faithful⟩, rfl, rfl⟩

lemma openIfAllowed_inv (huuid : Function.Injective uuid5) {t : ℤ} {w : SuploState × Outbox}
    (h : InvAt x uuid5 digest d t w) (side : String) (entry : PyFloat) :
    ∃ r w', (x.openIfAllowed digest uuid5 env side entry t).run w = (r, w') ∧
      InvAt x uuid5 digest d (t + 1) w' ∧ SameClock w.1 w'.1 := by
  have hlater : InvAt x uuid5 digest d (t + 1) w := h.mono (by omega)
  simp only [openIfAllowed, Coro.run_bind, run_getState]
  cases hpos : existingPosition w.1 with
  | some p => exact ⟨_, w, rfl, hlater, rfl, rfl⟩
  | none =>
  have hempty : w.1.positions.rows = [] := List.head?_eq_none_iff.mp hpos
  simp only [Option.isSome_none, Bool.false_eq_true, if_false, Coro.run_bind, Coro.run_ofExcept]
  cases x.positionQty entry with
  | error e => exact ⟨_, w, rfl, hlater, rfl, rfl⟩
  | ok qty =>
  dsimp only
  split
  · exact ⟨_, w, rfl, hlater, rfl, rfl⟩
  · rw [Coro.run_bind_ok (run_emitSignal henv (fun _ => rfl) _)]
    exact ⟨_, _, rfl, ⟨Inv.open huuid h.inv hempty rfl rfl _,
      faithful_emitted henv (fun _ => rfl) h.faithful⟩, rfl, rfl⟩

/-- The entry that a step of the state machine asks for. -/
lemma entry_inv (huuid : Function.Injective uuid5) {t : ℤ} {w : SuploState × Outbox}
    (h : InvAt x uuid5 digest d t w) (step : StateStep) :
    ∃ r w', (match step.flipOpen, step.side with
      | true, some side => x.openIfAllowed digest uuid5 env side step.entryPrice t
      | _, _ => pure () : Method SuploState Unit).run w = (r, w') ∧
      InvAt x uuid5 digest d (t + 1) w' ∧ SameClock w.1 w'.1 := by
  split
  · exact openIfAllowed_inv henv huuid h _ _
  · exact ⟨_, w, rfl, h.mono (by omega), rfl, rfl⟩

/-- `_evaluate_entries` may send the OPEN of its candle. -/
lemma evaluateEntries_inv (huuid : Function.Injective uuid5) {c : Candle}
    {w : SuploState × Outbox} (h : InvAt x uuid5 digest d c.time w) (direction : ℤ) :
    ∃ r w', (x.evaluateEntries digest uuid5 env c direction).run w = (r, w') ∧
      InvAt x uuid5 digest d (c.time + 1) w' ∧ SameClock w.1 w'.1 := by
  let w₁ : SuploState × Outbox :=
    ({ w.1 with lastTrendDir := (x.entryStep w.1 c direction).lastTrendDir }, w.2)
  have h₁ : InvAt x uuid5 digest d c.time w₁ := ⟨h.inv, h.faithful⟩
  simp only [evaluateEntries, Coro.run_bind, run_getState, run_modifyState]
  cases hpos : existingPosition w.1 with
  | none => exact entry_inv henv huuid h₁ _
  | some p =>
  have hp : p ∈ w₁.1.positions.rows := existingPosition_mem hpos
  -- an exit, and then the entry
  have hexit (reason : String) (price : Option PyFloat) :
      ∃ r w', (x.closePosition digest env p.positionId reason price c.time >>= fun _ =>
        (match (x.entryStep w.1 c direction).flipOpen, (x.entryStep w.1 c direction).side with
        | true, some side =>
          x.openIfAllowed digest uuid5 env side (x.entryStep w.1 c direction).entryPrice c.time
        | _, _ => pure () : Method SuploState Unit)).run w₁ = (r, w') ∧
        InvAt x uuid5 digest d (c.time + 1) w' ∧ SameClock w.1 w'.1 := by
    obtain ⟨w₂, hrun, h₂, hclock⟩ := closePosition_inv henv h₁ hp reason price c.time
    obtain ⟨r, w₃, hentry, h₃, hclock'⟩ := entry_inv henv huuid h₂ (x.entryStep w.1 c direction)
    rw [Coro.run_bind_ok hrun]
    exact ⟨r, w₃, hentry, h₃, hclock'.1.trans hclock.1, hclock'.2.trans hclock.2⟩
  dsimp only
  split
  · exact hexit _ _
  · split
    · exact hexit _ _
    · exact entry_inv henv huuid h₁ _

end Scan

/-! ## Runs -/

/-- One past the newest candle that has been scanned, after an event. -/
def clock (x : SuploXau) (b : ℤ) (s : SuploState) : Event → ℤ
  | .scan input =>
    match x.scanCandle input s with
    | some c => max b (c.time + 1)
    | none => b
  | _ => b

/-- What the run has to provide in a state: a new process starts on no older candle than the
last one did and with positions that are open, and no level is published twice. -/
def Orderly (x : SuploXau) (b : ℤ) (s : SuploState) : Event → Prop
  | .kline _ _ => True
  | .scan input => ∀ c ∈ x.scanCandle input s,
      b ≤ c.time + 1 ∧ (s.last15mOpen ≠ none → x.PublishesOnce s c)
  | .restart loaded _ => ∀ q ∈ loaded.rows, ∃ p ∈ s.positions.rows,
      q.positionId = p.positionId ∧ (p.tpEmitted ≠ none → q.tpEmitted ≠ none)

instance (b : ℤ) (s : SuploState) (e : Event) : Decidable (x.Orderly b s e) :=
  match e with
  | .kline _ _ => .isTrue trivial
  | .scan input => inferInstanceAs (Decidable (∀ c ∈ x.scanCandle input s, _ ∧ (_ → _)))
  | .restart loaded _ => inferInstanceAs (Decidable (∀ q ∈ loaded.rows, ∃ p ∈ s.positions.rows, _))

/-- Every event of the run is orderly in the state it meets. -/
def OrderlyRun (x : SuploXau) (digest : Logical → String) (uuid5 : String → String)
    (env : ℕ → DispatchEnv) : ℤ → SuploState × Outbox → List Event → Prop
  | _, _, [] => True
  | b, w, e :: events =>
    x.Orderly b w.1 e ∧
      OrderlyRun x digest uuid5 env (x.clock b w.1 e) (x.step digest uuid5 env w e) events

instance decidableOrderlyRun (digest : Logical → String) (env : ℕ → DispatchEnv) :
    (b : ℤ) → (w : SuploState × Outbox) → (events : List Event) →
      Decidable (x.OrderlyRun digest uuid5 env b w events)
  | _, _, [] => .isTrue trivial
  | b, w, e :: events =>
    have := decidableOrderlyRun digest env (x.clock b w.1 e) (x.step digest uuid5 env w e) events
    inferInstanceAs (Decidable (x.Orderly b w.1 e ∧ _))

/-- The state between two scans. -/
structure Good (x : SuploXau) (uuid5 : String → String) (digest : Logical → String)
    (d : Dispatcher) (b : ℤ) (w : SuploState × Outbox) : Prop where
  invAt : InvAt x uuid5 digest d b w
  scanned : ∀ l, w.1.last15mOpen = some l → b ≤ l + 1
  awaited : ∀ l p, w.1.last15mOpen = some l → w.1.pending15mOpen = some p → l < p

section Run

variable {digest : Logical → String} {env : ℕ → DispatchEnv} {d : Dispatcher}

lemma scanCandle_pending {input : ScanInput} {s : SuploState} {c : Candle}
    (h : x.scanCandle input s = some c) : s.pending15mOpen = some c.time := by
  unfold scanCandle at h
  split at h
  · cases h
  · exact (of_decide_eq_true (Option.filter_eq_some_iff.mp h).2).symm

lemma good_kline {b : ℤ} {w : SuploState × Outbox} (h : Good x uuid5 digest d b w) (ready : Bool)
    (latest : Option ℤ) :
    Good x uuid5 digest d b (x.shouldScanAfterEvent ready latest w.1, w.2) := by
  unfold shouldScanAfterEvent
  split
  · rename_i latest
    dsimp only
    split
    · exact h
    · rename_i hnew
      refine ⟨⟨h.invAt.inv, h.invAt.faithful⟩, h.scanned, fun l p hl hp => ?_⟩
      cases hp
      change w.1.last15mOpen = some l at hl
      rw [hl] at hnew
      simpa using hnew
  · exact h

lemma good_restart {b : ℤ} {w : SuploState × Outbox} (h : Good x uuid5 digest d b w)
    {loaded : Table SuploPosition.positionId} {ok : Bool}
    (ho : x.Orderly b w.1 (.restart loaded ok)) :
    Good x uuid5 digest d b ({ positions := loaded }, w.2.restart ok) := by
  refine ⟨⟨⟨fun q hq => ?_, fun c hc => ?_, ?_⟩, h.invAt.faithful.restart ok⟩,
    (fun _ hl => nomatch hl), fun _ _ hl => nomatch hl⟩
  · obtain ⟨p, hp, hid, -⟩ := ho q hq
    rw [hid]
    exact h.invAt.inv.known p hp
  · rw [Outbox.restart, calls_append] at hc
    exact (h.invAt.inv.sent c (by simpa [calls] using hc)).of_positions ho
  · rw [Outbox.restart, calls_append]
    simpa [calls] using h.invAt.inv.distinct

lemma good_adopt {b : ℤ} {w : SuploState × Outbox} (h : Good x uuid5 digest d b w) {t : ℤ}
    (hle : b ≤ t + 1) (candles : List Candle) :
    Good x uuid5 digest d (t + 1) (adopt t candles w.1, w.2) := by
  have hlater := h.invAt.mono hle
  unfold adopt
  split
  · rename_i p hp
    refine ⟨⟨?_, hlater.faithful⟩, fun l hl => ?_, fun _ _ _ hp => nomatch hp⟩
    · exact hlater.inv.update _ (f := withTrendDir) (fun _ => rfl) fun _ he => he
    · cases hl
      exact le_rfl
  · refine ⟨⟨hlater.inv, hlater.faithful⟩, fun l hl => ?_, fun _ _ _ hp => nomatch hp⟩
    cases hl
    exact le_rfl

/-- A scan that is not the first one of its process. -/
lemma good_work (henv : Acknowledges env) (huuid : Function.Injective uuid5) {b : ℤ}
    {w : SuploState × Outbox} (h : Good x uuid5 digest d b w) {input : ScanInput} {c : Candle}
    (hcandle : x.scanCandle input w.1 = some c) {last : ℤ} (hlast : w.1.last15mOpen = some last)
    (honce : x.PublishesOnce w.1 c) :
    Good x uuid5 digest d (c.time + 1) ((x.scan digest uuid5 env input).run w).2 := by
  have hnew : last < c.time := h.awaited last c.time hlast (scanCandle_pending hcandle)
  have hle : b ≤ c.time := (h.scanned last hlast).trans hnew
  let w₁ : SuploState × Outbox :=
    ({ w.1 with last15mOpen := some c.time, pending15mOpen := none }, w.2)
  have h₁ : InvAt x uuid5 digest d c.time w₁ := ⟨h.invAt.inv.mono hle, h.invAt.faithful⟩
  obtain ⟨w₂, hmanage, h₂, hclock₂⟩ := manageOnBar_inv henv (c := c) h₁ honce
  have hgood : ∀ w' : SuploState × Outbox, InvAt x uuid5 digest d (c.time + 1) w' →
      SameClock w₁.1 w'.1 → Good x uuid5 digest d (c.time + 1) w' := by
    rintro w' h' ⟨hlast', hpending'⟩
    refine ⟨h', fun l hl => ?_, fun l p _ hp => ?_⟩
    · cases hlast'.symm.trans hl
      exact le_rfl
    · cases hpending'.symm.trans hp
  have hsome : ¬ w.1.last15mOpen = none := by rw [hlast]; exact Option.some_ne_none _
  have hscan : (x.scan digest uuid5 env input).run w =
      (if input.canOpen ∧ x.isTradeTime c.time then
        x.evaluateEntries digest uuid5 env c
          ((supertrendDirections x.factor x.atrPeriod (x.series input)).getLast?.getD 0)
      else pure () : Method SuploState Unit).run w₂ := by
    rw [scan, Coro.run_bind_ok (run_getState w)]
    simp only [hcandle, if_neg hsome]
    rw [Coro.run_bind_ok (run_modifyState _ w)]
    exact Coro.run_bind_ok hmanage _
  rw [hscan]
  split
  · obtain ⟨r, w₃, hentries, h₃, hclock₃⟩ := evaluateEntries_inv henv huuid h₂
      ((supertrendDirections x.factor x.atrPeriod (x.series input)).getLast?.getD 0)
    rw [hentries]
    exact hgood w₃ h₃ ⟨hclock₃.1.trans hclock₂.1, hclock₃.2.trans hclock₂.2⟩
  · exact hgood w₂ (h₂.mono (by omega)) hclock₂

theorem good_step (henv : Acknowledges env) (huuid : Function.Injective uuid5) {b : ℤ}
    {w : SuploState × Outbox} {e : Event} (h : Good x uuid5 digest d b w)
    (ho : x.Orderly b w.1 e) :
    Good x uuid5 digest d (x.clock b w.1 e) (x.step digest uuid5 env w e) := by
  cases e with
  | kline ready latest => exact good_kline h ready latest
  | restart loaded ok => exact good_restart h ho
  | scan input =>
  cases hcandle : x.scanCandle input w.1 with
  | none =>
    simpa only [clock, hcandle, step, scan, Coro.run_bind, run_getState, Coro.run_pure] using h
  | some c =>
  obtain ⟨hle, honce⟩ := ho c hcandle
  have hclock : x.clock b w.1 (.scan input) = c.time + 1 := by
    simp only [clock, hcandle]
    exact max_eq_right hle
  rw [hclock]
  cases hlast : w.1.last15mOpen with
  | none =>
    have := good_adopt h hle (x.series input)
    simpa only [step, scan, Coro.run_bind, run_getState, hcandle, hlast, if_true,
      run_modifyState] using this
  | some last =>
    exact good_work henv huuid h hcandle hlast (honce (by rw [hlast]; exact Option.some_ne_none _))

theorem good_run (henv : Acknowledges env) (huuid : Function.Injective uuid5)
    {events : List Event} {b : ℤ} {w : SuploState × Outbox} (h : Good x uuid5 digest d b w)
    (ho : x.OrderlyRun digest uuid5 env b w events) :
    ∃ b', Good x uuid5 digest d b' (x.run digest uuid5 env w events) := by
  induction events generalizing b w with
  | nil => exact ⟨b, h⟩
  | cons e events ih => exact ih (good_step henv huuid h ho.1) ho.2

/-- What a run starts with. -/
lemma good_start {b : ℤ} {loaded : Table SuploPosition.positionId}
    (hloaded : ∀ p ∈ loaded.rows, x.Known uuid5 b p.positionId) :
    Good x uuid5 digest d b ({ positions := loaded }, { dispatcher := d }) :=
  ⟨⟨⟨hloaded, (fun _ hc => nomatch hc), List.Pairwise.nil⟩, .start d⟩, (fun _ hl => nomatch hl),
    fun _ _ hl => nomatch hl⟩

end Run

end SuploXau

end PaperTrade.Runner
