import PaperTrade.Runner.OpenInStream
import PaperTrade.Runner.SupertrendAdx

/-!
# The book of the Supertrend strategy and the stream

The strategy stores a position after the dispatch of its OPEN and removes it after that of its CLOSE, so
book and stream stay together as long as every dispatch is published or raises without an append.
-/

namespace PaperTrade.Runner

open PaperTrade.Runtime Dispatcher

/-! ## Methods that keep a relation between the state and the stream -/

section Keeps

variable {σ α β : Type} {digest : Logical → String} {env : ℕ → DispatchEnv}

/-- From `w` the method keeps `rel` between the state and the open ids, as long as its dispatches end as
`ok` allows. -/
def KeepsAt (digest : Logical → String) (ok : Outcome → Prop) (rel : σ → List Text → Prop)
    (p : Method σ α) (w : σ × Outbox) : Prop :=
  ∃ sent, Outbox.Sends digest w.2 sent (p.run w).2.2 ∧
    ((∀ e ∈ sent, ok e.2) → ∀ ids, rel w.1 ids → rel (p.run w).2.1 (noteAll ids sent))

variable {ok : Outcome → Prop} {rel : σ → List Text → Prop}

lemma KeepsAt.of_silent {p : Method σ α} {w : σ × Outbox} (hbox : (p.run w).2.2 = w.2)
    (hrel : ∀ ids, rel w.1 ids → rel (p.run w).2.1 ids) : KeepsAt digest ok rel p w := by
  refine ⟨[], ?_, fun _ => hrel⟩
  rw [hbox]
  exact .nil _

lemma KeepsAt.pure (a : α) (w : σ × Outbox) : KeepsAt digest ok rel (Pure.pure a : Method σ α) w :=
  .of_silent rfl fun _ h => h

lemma KeepsAt.modify {f : σ → σ} {w : σ × Outbox} (h : ∀ ids, rel w.1 ids → rel (f w.1) ids) :
    KeepsAt digest ok rel (modifyState f) w := .of_silent rfl h

lemma KeepsAt.bind {p : Method σ α} {k : α → Method σ β} {w : σ × Outbox}
    (hp : KeepsAt digest ok rel p w)
    (hk : ∀ a w', p.run w = (.ok a, w') → KeepsAt digest ok rel (k a) w') :
    KeepsAt digest ok rel (p >>= k) w := by
  obtain ⟨sent, hsends, hkeeps⟩ := hp
  cases hrun : p.run w with
  | mk r w' =>
  rw [hrun] at hsends hkeeps
  cases r with
  | error e =>
    refine ⟨sent, ?_, ?_⟩
    · rw [Coro.run_bind_error hrun]
      exact hsends
    · rw [Coro.run_bind_error hrun]
      exact hkeeps
  | ok a =>
    obtain ⟨sent', hsends', hkeeps'⟩ := hk a w' hrun
    refine ⟨sent ++ sent', ?_, fun hok ids h => ?_⟩
    · rw [Coro.run_bind_ok hrun]
      exact hsends.trans hsends'
    · rw [Coro.run_bind_ok hrun, noteAll_append]
      exact hkeeps' (fun e he => hok e (List.mem_append_right _ he)) _
        (hkeeps (fun e he => hok e (List.mem_append_left _ he)) ids h)

/-- `getState` hands on the state. -/
lemma KeepsAt.get_bind {k : σ → Method σ β} {w : σ × Outbox} (h : KeepsAt digest ok rel (k w.1) w) :
    KeepsAt digest ok rel (getState >>= k) w := by
  refine KeepsAt.bind (.of_silent rfl fun _ h => h) fun a w' hrun => ?_
  rw [run_getState] at hrun
  cases hrun
  exact h

variable (digest env) in
lemma run_emitSignal_outcome (w : σ × Outbox) (c : Call) :
    let outcome := w.2.dispatcher.outcome digest (w.2.next env) c
    let w' := (w.1, w.2.send digest (w.2.next env) c)
    (outcome.raises = false ∧ (emitSignal digest env c).run w = (.ok (), w')) ∨
      (outcome.raises = true ∧ (emitSignal digest env c).run w = (.error .appendRaised, w')) := by
  intro outcome w'
  have hreply : (w.2.dispatcher.dispatch digest (w.2.next env) c).1 =
      outcome.reply (digest c.logical) := (dispatch_eq digest _ _ _).1
  rw [emitSignal, Coro.run_sync, hreply]
  cases outcome with
  | published => exact .inl ⟨rfl, rfl⟩
  | dropped => exact .inl ⟨rfl, rfl⟩
  | skipped => exact .inl ⟨rfl, rfl⟩
  | lost => exact .inr ⟨rfl, rfl⟩
  | unacknowledged => exact .inr ⟨rfl, rfl⟩

/-- A dispatch is published, or raises without an append. -/
def Clean (outcome : Outcome) : Prop := outcome = .published ∨ outcome = .lost

instance (outcome : Outcome) : Decidable (Clean outcome) := inferInstanceAs (Decidable (_ ∨ _))

variable (digest env) in
/-- A signal and then a change of the state: both take effect or none does. -/
lemma KeepsAt.emit_modify {w : σ × Outbox} {c : Call} {f : σ → σ}
    (h : ∀ ids, rel w.1 ids → rel (f w.1) (c.note ids)) :
    KeepsAt digest Clean rel (do emitSignal digest env c; modifyState f) w := by
  refine ⟨[(c, w.2.dispatcher.outcome digest (w.2.next env) c)], ?_, fun hclean ids hrel => ?_⟩
  · rcases run_emitSignal_outcome digest env w c with ⟨-, hrun⟩ | ⟨-, hrun⟩
    · rw [Coro.run_bind_ok hrun]
      exact .single ..
    · rw [Coro.run_bind_error hrun]
      exact .single ..
  · have hends := hclean _ (List.mem_singleton_self _)
    rw [noteAll_cons]
    rcases run_emitSignal_outcome digest env w c with ⟨hraises, hrun⟩ | ⟨hraises, hrun⟩
    · rw [Coro.run_bind_ok hrun]
      generalize w.2.dispatcher.outcome digest (w.2.next env) c = outcome at *
      rcases hends with rfl | rfl
      · exact h ids hrel
      · cases hraises
    · rw [Coro.run_bind_error hrun]
      generalize w.2.dispatcher.outcome digest (w.2.next env) c = outcome at *
      rcases hends with rfl | rfl
      · cases hraises
      · exact hrel

end Keeps

namespace SupertrendAdx

variable {x : SupertrendAdx} {digest : Logical → String} {uuid5 : String → String}
  {env : ℕ → DispatchEnv}

/-- The ids of the book. -/
def bookIds (s : AdxState) : List Text := s.positions.rows.map fun p => .chars p.positionId

/-- The book has the ids that are open. -/
def Holds (s : AdxState) (ids : List Text) : Prop := SameIds (bookIds s) ids

lemma note_closeCall (positionId reason : String) (price : PyFloat) (t : ℤ) (ids : List Text) :
    (x.closeCall positionId reason price t).note ids = ids.filter (· ≠ .chars positionId) := by
  have hplain : (x.closeCall positionId reason price t).Plain positionId := by
    constructor <;> simp [closeCall, call]
  exact hplain.note_close rfl (by simp [closeCall, call]) ids

lemma note_openCall (p : AdxPosition) (ids : List Text) :
    (x.openCall p).note ids = .chars p.positionId :: ids := by
  have hplain : (x.openCall p).Plain p.positionId := by
    constructor <;> simp [openCall, call]
  exact hplain.note_open rfl ids

lemma holds_of_positions {s s' : AdxState} (h : s'.positions = s.positions) {ids : List Text}
    (hs : Holds s ids) : Holds s' ids := by
  unfold Holds bookIds
  rw [h]
  exact hs

lemma keeps_closePosition (positionId reason : String) (price : PyFloat) (t : ℤ)
    (w : AdxState × Outbox) :
    KeepsAt digest Clean Holds (x.closePosition digest env positionId reason price t) w := by
  refine KeepsAt.emit_modify digest env fun ids h pid => ?_
  rw [note_closeCall, List.mem_filter, ← h pid, bookIds, bookIds, List.mem_map, List.mem_map,
    decide_eq_true_iff]
  constructor
  · rintro ⟨p, hp, rfl⟩
    obtain ⟨hmem, hne⟩ := (Table.mem_erase _ _ _).mp hp
    exact ⟨⟨p, hmem, rfl⟩, fun heq => hne (Text.chars.inj heq)⟩
  · rintro ⟨⟨p, hp, rfl⟩, hne⟩
    exact ⟨p, (Table.mem_erase _ _ _).mpr ⟨hp, fun heq => hne (congrArg _ heq)⟩, rfl⟩

lemma keeps_openIfAllowed (side : String) (entry : PyFloat) (t : ℤ) (w : AdxState × Outbox) :
    KeepsAt digest Clean Holds (x.openIfAllowed digest uuid5 env side entry t) w := by
  refine KeepsAt.get_bind ?_
  split
  · exact .pure _ _
  · rename_i hnone
    refine KeepsAt.bind (.of_silent rfl fun _ h => h) fun qty w' hqty => ?_
    rw [Coro.run_ofExcept] at hqty
    obtain rfl : w = w' := congrArg Prod.snd hqty
    split
    · exact .pure _ _
    · refine KeepsAt.emit_modify digest env fun ids h pid => ?_
      have hempty : w.1.positions.rows = [] := by
        rw [existingPosition] at hnone
        cases hrows : w.1.positions.rows with
        | nil => rfl
        | cons p rows =>
          rw [hrows] at hnone
          exact absurd rfl hnone
      have hfree : ∀ positionId, w.1.positions.contains positionId = false := by
        intro positionId
        rw [Table.not_contains_iff, hempty]
        exact fun p hp => absurd hp List.not_mem_nil
      rw [note_openCall, List.mem_cons, ← h pid, bookIds, bookIds,
        Table.rows_insertOrIgnore_of_not_contains (hfree _), List.map_append, List.mem_append,
        List.map_singleton, List.mem_singleton, or_comm]

lemma keeps_modify {f : AdxState → AdxState} (hf : ∀ s, bookIds (f s) = bookIds s)
    (w : AdxState × Outbox) : KeepsAt digest Clean Holds (modifyState f) w := by
  refine KeepsAt.modify fun ids h => ?_
  unfold Holds
  rw [hf]
  exact h

lemma bookIds_update (positionId : String) (f : AdxPosition → AdxPosition)
    (hf : ∀ p, (f p).positionId = p.positionId) (s : AdxState) :
    bookIds (update positionId f hf s) = bookIds s := by
  rw [bookIds, bookIds, update, Table.modify, List.map_map]
  refine List.map_congr_left fun p _ => ?_
  simp only [Function.comp_apply]
  split
  · rw [hf]
  · rfl

lemma keeps_closeOpposite (direction : ℤ) (newest : Candle) (position : Option AdxPosition)
    (w : AdxState × Outbox) :
    KeepsAt digest Clean Holds (x.closeOpposite digest env direction newest position) w := by
  unfold closeOpposite
  split
  · exact .pure _ _
  · split
    · exact keeps_closePosition _ _ _ _ _
    · exact .pure _ _

lemma keeps_scanCandle (newest : Candle) (closed : List Candle) (w : AdxState × Outbox) :
    KeepsAt digest Clean Holds (x.scanCandle digest uuid5 env newest closed) w := by
  refine KeepsAt.get_bind (KeepsAt.bind (keeps_modify (fun _ => rfl) _) fun _ w' _ => ?_)
  split
  · refine KeepsAt.bind (keeps_modify (fun _ => rfl) _) fun _ w'' _ => ?_
    exact KeepsAt.bind (keeps_closeOpposite _ _ _ _) fun _ w''' _ => keeps_openIfAllowed _ _ _ _
  · split
    · exact .pure _ _
    · refine KeepsAt.bind (keeps_modify (bookIds_update _ _ _) _) fun _ w'' _ => ?_
      split
      · exact keeps_closePosition _ _ _ _ _
      · exact .pure _ _

lemma keeps_scan (candles : List Candle) (w : AdxState × Outbox) :
    KeepsAt digest Clean Holds (x.scan digest uuid5 env candles) w := by
  refine KeepsAt.get_bind ?_
  split
  · exact .pure _ _
  · refine KeepsAt.bind ?_ fun _ w' _ => keeps_modify (fun _ => rfl) _
    unfold scan15m
    dsimp only
    split
    · exact .pure _ _
    · split
      · exact .pure _ _
      · split
        · exact .of_silent rfl fun _ h => h
        · refine KeepsAt.get_bind ?_
          split
          · exact keeps_modify (fun _ => rfl) _
          · exact keeps_scanCandle _ _ _

variable (x digest uuid5 env) in
/-- The outcomes of an event that keep the book and the stream together. -/
def Kept (e : Event) (w : AdxState × Outbox) : Prop :=
  ∀ sent ∈ Outbox.since digest w.2 (x.step digest uuid5 env w e).2, Clean sent.2

/-- One event. -/
lemma follows_step {loaded : List Text} {n : ℕ} {e : Event} {w : AdxState × Outbox}
    (hn : n ≤ w.2.dispatcher.stream.length) (h : SameIds (bookIds w.1) (w.2.openIds loaded n))
    (hkept : Kept x digest uuid5 env e w) :
    n ≤ (x.step digest uuid5 env w e).2.dispatcher.stream.length ∧
      SameIds (bookIds (x.step digest uuid5 env w e).1)
        ((x.step digest uuid5 env w e).2.openIds loaded n) := by
  cases e with
  | kline ready latest =>
    refine ⟨hn, ?_⟩
    have hpositions : (x.shouldScanAfterEvent ready latest w.1).positions = w.1.positions := by
      unfold shouldScanAfterEvent
      split
      · dsimp only
        split <;> rfl
      · rfl
    exact holds_of_positions hpositions h
  | scan candles =>
    obtain ⟨sent, hsends, hkeeps⟩ := @keeps_scan x digest uuid5 env candles w
    obtain ⟨hlength, hids⟩ := hsends.openIds loaded hn
    refine ⟨hlength, ?_⟩
    unfold Kept at hkept
    have hclean : ∀ e ∈ sent, Clean e.2 := by
      rw [← hsends.since_eq]
      exact hkept
    change SameIds (bookIds ((x.scan digest uuid5 env candles).run w).2.1)
      (((x.scan digest uuid5 env candles).run w).2.2.openIds loaded n)
    rw [hids]
    exact hkeeps hclean _ h

end SupertrendAdx

end PaperTrade.Runner
