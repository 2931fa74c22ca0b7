import PaperTrade.Runner.OpenInStream
import PaperTrade.Runner.RebalanceCloses

/-!
# The book of a rebalancing strategy and the stream

A rebalance clears its book after the CLOSEs, however their dispatches have ended, and puts a position
into it before the OPEN. The book still has the ids that are open in the stream when every CLOSE is
published and every OPEN is either appended or dropped on an invalid lease: `Kept`, and `follows_rebalance`
for one rebalance.
-/

namespace PaperTrade.Runner

open PaperTrade.Runtime PaperTrade.CrossAlpha Dispatcher

namespace CrossSectional

/-- The ids of a book. -/
def bookIds (book : Dict String OpenPosition) : List Text :=
  book.rows.map fun e => .chars e.2.positionId

section Notes

variable {x : CrossSectional}

lemma note_closeCall (symbol positionId : String) (price : PyFloat) (t : ℤ) (ids : List Text) :
    (x.closeCall symbol positionId price t).note ids = ids.filter (· ≠ .chars positionId) := by
  have hplain : (x.closeCall symbol positionId price t).Plain positionId := by
    constructor <;> simp [closeCall, call]
  exact hplain.note_close rfl (by simp [closeCall, call]) ids

lemma note_openCall (selection : Selection) (pos : OpenPosition) (t : ℤ) (now : String)
    (ids : List Text) :
    (x.openCall selection pos t now).note ids = .chars pos.positionId :: ids := by
  have hplain : (x.openCall selection pos t now).Plain pos.positionId := by
    constructor <;> simp [openCall, call]
  exact hplain.note_open rfl ids

end Notes

/-! ## One dispatch -/

section Dispatches

variable {x : CrossSectional} {digest : Logical → String} {uuid4 : ℕ → String}
  {env : ℕ → DispatchEnv}

/-- What the outcome of a dispatch does to the lease that the strategy sees. -/
def leased (outcome : Outcome) (s : CrossState) : CrossState :=
  if outcome = .dropped then { s with runtime := { s.runtime with leaseValid := false } } else s

variable (digest env) in
lemma run_emit_outcome (w : CrossState × Outbox) (c : Call) :
    let outcome := w.2.dispatcher.outcome digest (w.2.next env) c
    let w' := w.2.send digest (w.2.next env) c
    (outcome.raises = false ∧ (emit digest env c).run w =
        (.ok (outcome.reply (digest c.logical)), (leased outcome w.1, w'))) ∨
      (outcome.raises = true ∧ (emit digest env c).run w = (.error .appendRaised, (w.1, w'))) := by
  intro outcome w'
  have hreply : (w.2.dispatcher.dispatch digest (w.2.next env) c).1 =
      outcome.reply (digest c.logical) := (dispatch_eq digest _ _ _).1
  rw [emit, emitReply, Coro.run_bind, Coro.run_sync, hreply]
  cases outcome with
  | published => exact .inl ⟨rfl, rfl⟩
  | dropped => exact .inl ⟨rfl, rfl⟩
  | skipped => exact .inl ⟨rfl, rfl⟩
  | lost => exact .inr ⟨rfl, rfl⟩
  | unacknowledged => exact .inr ⟨rfl, rfl⟩

/-! ## The CLOSEs -/

/-- Published CLOSEs close the ids of the book. -/
lemma noteAll_closes (price : String × OpenPosition → PyFloat) (t : ℤ)
    {book : List (String × OpenPosition)} {sent : List (Call × Outcome)}
    (hcalls : sent.map Prod.fst = book.map fun e => x.closeCall e.1 e.2.positionId (price e) t)
    (hpublished : ∀ e ∈ sent, e.2 = .published) (ids : List Text) (pid : Text) :
    pid ∈ noteAll ids sent ↔ pid ∈ ids ∧ ∀ e ∈ book, pid ≠ .chars e.2.positionId := by
  induction book generalizing sent ids with
  | nil =>
    rw [List.map_nil, List.map_eq_nil_iff] at hcalls
    rw [hcalls]
    simp [noteAll]
  | cons entry book ih =>
    cases sent with
    | nil => cases hcalls
    | cons e sent =>
      obtain ⟨c, outcome⟩ := e
      rw [List.map_cons, List.map_cons, List.cons.injEq] at hcalls
      obtain ⟨hhead, htail⟩ := hcalls
      have houtcome : outcome = .published := hpublished _ (List.mem_cons_self ..)
      have happended : outcome.appended = true := by
        rw [houtcome]
        rfl
      have hnote : c.note ids = ids.filter (· ≠ .chars entry.2.positionId) := by
        change c = _ at hhead
        rw [hhead, note_closeCall]
      rw [noteAll_cons, happended, if_pos rfl, hnote,
        ih htail fun e he => hpublished e (List.mem_cons_of_mem _ he), List.mem_filter,
        List.forall_mem_cons, decide_eq_true_iff, and_assoc]

variable (x digest env) in
/-- The CLOSEs of a book: all of them, or those up to the first one that raises. -/
lemma run_closeAll_sends (w : CrossState × Outbox) (prices : Dict String PyFloat)
    (cachedClose : String → Option PyFloat) (candleOpenMs : ℤ) (book : List (String × OpenPosition)) :
    ∃ sent r s' o', (x.closeAll digest env prices cachedClose candleOpenMs book).run w = (r, (s', o')) ∧
      Outbox.Sends digest w.2 sent o' ∧ (∃ rt, s' = { w.1 with runtime := rt }) ∧
      (∀ e ∈ sent, e.1.type = "CLOSE") ∧
      ((r = .ok () ∧ (∀ e ∈ sent, e.2.raises = false) ∧
          sent.map Prod.fst = book.map fun e => x.closeCall e.1 e.2.positionId
            (closestExitPrice e.1 prices w.1.lastPrices cachedClose e.2) candleOpenMs) ∨
        (∃ err, r = .error err) ∧ ∃ e, sent.getLast? = some e ∧ e.2.raises = true) := by
  induction book generalizing w with
  | nil =>
    have hnone : ∀ e : Call × Outcome, e ∉ ([] : List (Call × Outcome)) :=
      fun _ => List.not_mem_nil
    exact ⟨[], .ok (), w.1, w.2, rfl, .nil _, ⟨w.1.runtime, rfl⟩, fun e he => absurd he (hnone e),
      .inl ⟨rfl, fun e he => absurd he (hnone e), rfl⟩⟩
  | cons entry book ih =>
    obtain ⟨symbol, pos⟩ := entry
    let c := x.closeCall symbol pos.positionId
      (closestExitPrice symbol prices w.1.lastPrices cachedClose pos) candleOpenMs
    rw [closeAll, Coro.run_bind_ok (run_getState w)]
    rcases run_emit_outcome digest env w c with ⟨hraises, hemit⟩ | ⟨hraises, hemit⟩
    · rw [Coro.run_bind_ok hemit]
      generalize houtcome : w.2.dispatcher.outcome digest (w.2.next env) c = outcome at *
      obtain ⟨rt, hrt⟩ : ∃ rt, leased outcome w.1 = { w.1 with runtime := rt } := by
        unfold leased
        split
        · exact ⟨_, rfl⟩
        · exact ⟨w.1.runtime, rfl⟩
      obtain ⟨sent, r, s', o', hrun, hsends, ⟨rt', hs'⟩, htypes, hend⟩ :=
        ih (leased outcome w.1, w.2.send digest (w.2.next env) c)
      have hprices : (leased outcome w.1).lastPrices = w.1.lastPrices := by rw [hrt]
      refine ⟨(c, outcome) :: sent, r, s', o', hrun, houtcome ▸ .cons hsends, ⟨rt', ?_⟩, ?_, ?_⟩
      · rw [hs', hrt]
      · exact List.forall_mem_cons.mpr ⟨rfl, htypes⟩
      · rcases hend with ⟨hr, hnone, hcalls⟩ | ⟨hr, e, hlast, he⟩
        · refine .inl ⟨hr, List.forall_mem_cons.mpr ⟨hraises, hnone⟩, ?_⟩
          rw [List.map_cons, List.map_cons, hcalls]
          dsimp only
          rw [hprices]
        · refine .inr ⟨hr, e, ?_, he⟩
          cases sent with
          | nil => cases hlast
          | cons e' sent => exact hlast
    · rw [Coro.run_bind_error hemit]
      refine ⟨[(c, _)], _, _, _, rfl, .single .., ⟨w.1.runtime, rfl⟩, ?_, .inr ⟨⟨_, rfl⟩, _, rfl, hraises⟩⟩
      exact List.forall_mem_cons.mpr ⟨rfl, fun e he => absurd he List.not_mem_nil⟩

/-! ## The OPENs -/

/-- The outcomes of OPENs that keep the book and the stream together. `leaseValid` is what the strategy
sees: a skipped OPEN is taken back only while the lease is known to be invalid. -/
def OpensFollow : Bool → List Outcome → Prop
  | _, [] => True
  | leaseValid, .published :: rest => OpensFollow leaseValid rest
  | _, .dropped :: rest => OpensFollow false rest
  | leaseValid, .skipped :: rest => leaseValid = false ∧ OpensFollow leaseValid rest
  | _, .lost :: _ => False
  | _, .unacknowledged :: _ => True

instance : (leaseValid : Bool) → (outcomes : List Outcome) →
    Decidable (OpensFollow leaseValid outcomes)
  | _, [] => .isTrue trivial
  | leaseValid, .published :: rest => instDecidableOpensFollow leaseValid rest
  | _, .dropped :: rest => instDecidableOpensFollow false rest
  | leaseValid, .skipped :: rest =>
    have := instDecidableOpensFollow leaseValid rest
    inferInstanceAs (Decidable (_ ∧ _))
  | _, .lost :: _ => .isFalse id
  | _, .unacknowledged :: _ => .isTrue trivial

lemma mem_bookIds {book : Dict String OpenPosition} {pid : Text} :
    pid ∈ bookIds book ↔ ∃ e ∈ book.rows, Text.chars e.2.positionId = pid := List.mem_map

lemma sameIds_set {book : Dict String OpenPosition} {symbol : String}
    (hfree : book.contains symbol = false) (pos : OpenPosition) {ids : List Text}
    (h : SameIds (bookIds book) ids) :
    SameIds (bookIds (book.set symbol pos)) (.chars pos.positionId :: ids) := by
  intro pid
  rw [bookIds, Dict.rows_set_of_not_contains hfree, List.map_append, List.mem_append, List.map_cons,
    List.map_nil, List.mem_singleton, List.mem_cons, or_comm]
  exact or_congr_right (h pid)

/-- A position that is taken back leaves no trace. -/
lemma rows_erase_set {book : Dict String OpenPosition} {symbol : String}
    (hfree : book.contains symbol = false) (pos : OpenPosition) :
    ((book.set symbol pos).erase symbol).rows = book.rows := by
  have hother : ∀ e ∈ book.rows, decide (e.1 ≠ symbol) = true := by
    intro e he
    rw [decide_eq_true_iff]
    exact (book.not_contains_iff symbol).mp hfree e he
  have hself : ¬ decide (symbol ≠ symbol) = true := by simp
  rw [Table.erase, Table.rows_filter, Dict.rows_set_of_not_contains hfree, List.filter_append,
    List.filter_eq_self.mpr hother]
  exact (congrArg (book.rows ++ ·) (List.filter_cons_of_neg hself)).trans (List.append_nil _)

/-- What becomes of the state after an OPEN that does not raise. -/
lemma afterOpen_cases (symbol id : String) {outcome : Outcome} (h : outcome.raises = false)
    (s : CrossState) :
    (outcome = .published ∧ afterOpen symbol (outcome.reply id) (leased outcome s) = s) ∨
    (outcome = .skipped ∧ s.runtime.leaseValid = true ∧
      afterOpen symbol (outcome.reply id) (leased outcome s) = s) ∨
    ((outcome = .dropped ∨ outcome = .skipped ∧ s.runtime.leaseValid = false) ∧ ∃ rt,
      rt.leaseValid = false ∧ afterOpen symbol (outcome.reply id) (leased outcome s) =
        { s with openPositions := s.openPositions.erase symbol, runtime := rt }) := by
  cases outcome with
  | published => exact .inl ⟨rfl, rfl⟩
  | dropped => exact .inr (.inr ⟨.inl rfl, _, rfl, rfl⟩)
  | skipped =>
    cases hlease : s.runtime.leaseValid with
    | true => exact .inr (.inl ⟨rfl, rfl, if_pos hlease⟩)
    | false =>
      refine .inr (.inr ⟨.inr ⟨rfl, rfl⟩, s.runtime, hlease, if_neg ?_⟩)
      change ¬ s.runtime.leaseValid = true
      rw [hlease]
      exact Bool.false_ne_true
  | lost => cases h
  | unacknowledged => cases h

variable (x digest uuid4 env) in
/-- The OPENs of some weights. -/
lemma run_openAll_sends (w : CrossState × Outbox) (selection : Selection)
    (prices : Dict String PyFloat) (candleOpenMs : ℤ) (weights : List (String × PyFloat))
    (hsymbols : (weights.map Prod.fst).Nodup)
    (hfree : ∀ e ∈ weights, w.1.openPositions.contains e.1 = false) :
    ∃ sent r s' o',
      (x.openAll digest uuid4 env selection prices candleOpenMs weights).run w = (r, (s', o')) ∧
      Outbox.Sends digest w.2 sent o' ∧ (∀ e ∈ sent, e.1.type = "OPEN") ∧
      (OpensFollow w.1.runtime.leaseValid (sent.map Prod.snd) → ∀ ids,
        SameIds (bookIds w.1.openPositions) ids → SameIds (bookIds s'.openPositions) (noteAll ids sent)) := by
  induction weights generalizing w with
  | nil =>
    exact ⟨[], .ok (), w.1, w.2, rfl, .nil _, fun e he => absurd he List.not_mem_nil,
      fun _ ids h => h⟩
  | cons entry weights ih =>
    obtain ⟨symbol, weight⟩ := entry
    rw [List.map_cons, List.nodup_cons] at hsymbols
    obtain ⟨hnew, hrest⟩ := hsymbols
    have hsymbol : w.1.openPositions.contains symbol = false := hfree _ (List.mem_cons_self ..)
    let pos := x.newPosition uuid4 prices candleOpenMs w.1 symbol weight
    let s : CrossState := { w.1 with
      openPositions := w.1.openPositions.set symbol pos, drawn := w.1.drawn + 1 }
    let c := x.openCall selection pos candleOpenMs (w.2.next env).now
    have hnote : ∀ ids, c.note ids = .chars pos.positionId :: ids := note_openCall _ _ _ _
    -- the other symbols are free whatever becomes of this one
    have hfree' : ∀ e ∈ weights, (w.1.openPositions.set symbol pos).contains e.1 = false := by
      intro e he
      rw [Bool.eq_false_iff]
      intro hin
      rcases (Dict.contains_set _ _ _ _).mp hin with rfl | hin
      · exact hnew (List.mem_map.mpr ⟨e, he, rfl⟩)
      · rw [hfree e (List.mem_cons_of_mem _ he)] at hin
        cases hin
    have herased : ((w.1.openPositions.set symbol pos).erase symbol).rows = w.1.openPositions.rows :=
      rows_erase_set hsymbol pos
    have hfree'' : ∀ e ∈ weights,
        ((w.1.openPositions.set symbol pos).erase symbol).contains e.1 = false := by
      intro e he
      rw [Table.ext herased]
      exact hfree e (List.mem_cons_of_mem _ he)
    rw [openAll, Coro.run_bind_ok (run_getState w), Coro.run_bind_ok (run_modifyState _ w),
      Coro.run_bind_ok (run_getNow (s, w.2))]
    rcases run_emit_outcome digest env (s, w.2) c with ⟨hraises, hemit⟩ | ⟨hraises, hemit⟩
    · rw [Coro.run_bind_ok hemit, Coro.run_bind_ok (run_modifyState _ _)]
      generalize houtcome : w.2.dispatcher.outcome digest (w.2.next env) c = outcome at *
      have hstate := afterOpen_cases symbol (digest c.logical) hraises s
      generalize afterOpen symbol (outcome.reply (digest c.logical)) (leased outcome s) = s' at *
      generalize ho : w.2.send digest (w.2.next env) c = o at *
      have hcons : ∀ {sent o'}, Outbox.Sends digest o sent o' →
          Outbox.Sends digest w.2 ((c, outcome) :: sent) o' := fun h => houtcome ▸ .cons (ho ▸ h)
      rcases hstate with ⟨rfl, rfl⟩ | ⟨rfl, hlease, rfl⟩ | ⟨hcase, rt, hrt, rfl⟩
      · obtain ⟨sent, r, s', o', hrun, hsends, htypes, hfollows⟩ := ih (s, o) hrest hfree'
        refine ⟨_, r, s', o', hrun, hcons hsends, List.forall_mem_cons.mpr ⟨rfl, htypes⟩,
          fun hopens ids h => ?_⟩
        have happended : Outcome.published.appended = true := rfl
        rw [noteAll_cons, happended, if_pos rfl, hnote]
        exact hfollows hopens _ (sameIds_set hsymbol pos h)
      · obtain ⟨sent, r, s', o', hrun, hsends, htypes, -⟩ := ih (s, o) hrest hfree'
        refine ⟨_, r, s', o', hrun, hcons hsends, List.forall_mem_cons.mpr ⟨rfl, htypes⟩,
          fun hopens => ?_⟩
        have hinvalid : w.1.runtime.leaseValid = false := hopens.1
        have hvalid : w.1.runtime.leaseValid = true := hlease
        rw [hinvalid] at hvalid
        cases hvalid
      · obtain ⟨sent, r, s', o', hrun, hsends, htypes, hfollows⟩ := ih
          ({ s with openPositions := s.openPositions.erase symbol, runtime := rt }, o) hrest hfree''
        refine ⟨_, r, s', o', hrun, hcons hsends, List.forall_mem_cons.mpr ⟨rfl, htypes⟩,
          fun hopens ids h => ?_⟩
        have htaken : SameIds (bookIds (s.openPositions.erase symbol)) ids := by
          rw [Table.ext herased]
          exact h
        have hsent : OpensFollow rt.leaseValid (sent.map Prod.snd) := by
          rw [hrt]
          rcases hcase with rfl | ⟨rfl, hlease⟩
          · exact hopens
          · rw [← hopens.1]
            exact hopens.2
        have hsilent : outcome.appended = false := by
          rcases hcase with rfl | ⟨rfl, -⟩ <;> rfl
        rw [noteAll_cons, hsilent]
        exact hfollows hsent ids htaken
    · rw [Coro.run_bind_error hemit]
      refine ⟨[(c, _)], _, _, _, rfl, .single .., ?_, fun hopens ids h => ?_⟩
      · exact List.forall_mem_cons.mpr ⟨rfl, fun e he => absurd he List.not_mem_nil⟩
      · generalize w.2.dispatcher.outcome digest (w.2.next env) c = outcome at *
        cases outcome with
        | lost => exact absurd hopens id
        | unacknowledged =>
          have happended : Outcome.unacknowledged.appended = true := rfl
          rw [noteAll_cons, happended, if_pos rfl, hnote]
          exact sameIds_set hsymbol pos h
        | _ => cases hraises

/-! ## One rebalance -/

variable (x digest uuid4 env) in
/-- The outcomes that keep the book and the stream together: every CLOSE is published and the OPENs
follow, or a CLOSE is lost before anything has been appended or adopted. -/
def Kept (r : Rebalance) (w : CrossState × Outbox) : Prop :=
  let sent := Outbox.since digest w.2 (x.rebalance digest uuid4 env r w).2
  ((∀ e ∈ sent, e.1.type = "CLOSE" → e.2 = .published) ∧
      OpensFollow true ((sent.filter fun e => e.1.type = "OPEN").map Prod.snd)) ∨
    (adopted r w.1 = w.1.openPositions ∧ (∀ e ∈ sent, e.1.type = "CLOSE" ∧ e.2.appended = false) ∧
      ∃ e, sent.getLast? = some e ∧ e.2 = .lost)

/-- The weights of a rebalance have different symbols. -/
lemma nodup_balance (selection : Selection) (prices : Dict String PyFloat)
    (tradable : Option (List String)) :
    ((balance (tradableWeights selection prices tradable)).map Prod.fst).Nodup := by
  have hrows : (selection.weights.rows.map Prod.fst).Nodup := Table.nodup_keys _
  have htradable : ((tradableWeights selection prices tradable).map Prod.fst).Sublist
      (selection.weights.rows.map Prod.fst) := by
    unfold tradableWeights
    exact List.filter_sublist.map Prod.fst
  refine hrows.sublist (List.Sublist.trans ?_ htradable)
  unfold balance
  dsimp only
  split
  · exact List.filter_sublist.map Prod.fst
  · exact List.Sublist.refl _

variable (x digest uuid4 env) in
/-- A rebalance sends the CLOSEs of its book, and, unless one of them raises, clears the book and sends
OPENs that put it together again. -/
lemma rebalance_sends (r : Rebalance) (w : CrossState × Outbox) : ∃ closes opens,
    Outbox.Sends digest w.2 (closes ++ opens) (x.rebalance digest uuid4 env r w).2 ∧
    (∀ e ∈ closes, e.1.type = "CLOSE") ∧ (∀ e ∈ opens, e.1.type = "OPEN") ∧
    (((∀ e ∈ closes, e.2.raises = false) ∧
        (closes.map Prod.fst = (adopted r w.1).rows.map fun e => x.closeCall e.1 e.2.positionId
          (closestExitPrice e.1 r.prices w.1.lastPrices r.cachedClose e.2) r.candleOpenMs) ∧
        (OpensFollow true (opens.map Prod.snd) → SameIds
          (bookIds (x.rebalance digest uuid4 env r w).1.openPositions) (noteAll [] opens))) ∨
      (opens = [] ∧ (x.rebalance digest uuid4 env r w).1.openPositions = adopted r w.1 ∧
        ∃ e, closes.getLast? = some e ∧ e.2.raises = true)) := by
  let s : CrossState := { w.1 with openPositions := adopted r w.1 }
  have hadopt : (modifyState fun s : CrossState => { s with
      openPositions := ((r.authoritative.map Table.rows).getD []).foldl adopt s.openPositions }).run w =
      (.ok (), (s, w.2)) := rfl
  obtain ⟨closes, res, s', o, hclose, hsends, ⟨rt, hs'⟩, htypes, hend⟩ :=
    run_closeAll_sends x digest env (s, w.2) r.prices r.cachedClose r.candleOpenMs s.openPositions.rows
  have hrun : x.rebalance digest uuid4 env r w = (Coro.run (x.applySelection digest uuid4 env
      r.selection r.prices r.candleOpenMs r.authoritative r.cachedClose) w).2 := rfl
  rw [applySelection, Coro.run_bind_ok hadopt, Coro.run_bind_ok (run_getState (s, w.2))] at hrun
  rcases hend with ⟨rfl, hraises, hcalls⟩ | ⟨⟨err, rfl⟩, hlast⟩
  · rw [Coro.run_bind_ok hclose, Coro.run_bind_ok (run_modifyState _ _),
      Coro.run_bind_ok (run_modifyState _ _), Coro.run_bind_ok (run_getState _)] at hrun
    dsimp only at hrun
    have hempty : SameIds (bookIds (.empty : Dict String OpenPosition)) [] := fun pid => Iff.rfl
    split at hrun
    · refine ⟨closes, [], ?_, htypes, fun e he => absurd he List.not_mem_nil,
        .inl ⟨hraises, hcalls, fun _ => ?_⟩⟩
      · rw [hrun, List.append_nil]
        exact hsends
      · rw [hrun]
        exact hempty
    · rename_i hopen
      rw [not_or, Bool.not_eq_false] at hopen
      have hlease : s'.runtime.leaseValid = true := by
        have hcan := hopen.2
        unfold StrategyRuntimeState.canOpenNewTrades at hcan
        simp only [Bool.and_eq_true] at hcan
        exact hcan.1.1.1.2
      obtain ⟨opens, res', s'', o', hopens, hsends', htypes', hfollows⟩ := run_openAll_sends x digest
        uuid4 env ({ s' with
          openPositions := .empty
          pendingCost := turnover s'.baseWeights r.selection.weights * .fin x.spec.feeBps / 10000
          strategyLeverage := x.volTargetLeverage { s' with openPositions := .empty }
          baseWeights := r.selection.weights }, o)
        r.selection r.prices r.candleOpenMs
        (balance (tradableWeights r.selection r.prices s'.liveTradableSymbols))
        (nodup_balance _ _ _) fun e _ => rfl
      have hstate : x.rebalance digest uuid4 env r w = (s'', o') :=
        hrun.trans (congrArg Prod.snd hopens)
      refine ⟨closes, opens, ?_, htypes, htypes', .inl ⟨hraises, hcalls, fun hfollow => ?_⟩⟩
      · rw [hstate]
        exact hsends.trans hsends'
      · rw [hstate]
        have hfollow' : OpensFollow s'.runtime.leaseValid (opens.map Prod.snd) := by
          rw [hlease]
          exact hfollow
        exact hfollows hfollow' [] hempty
  · rw [Coro.run_bind_error hclose] at hrun
    refine ⟨closes, [], ?_, htypes, fun e he => absurd he List.not_mem_nil, .inr ⟨rfl, ?_, hlast⟩⟩
    · rw [hrun, List.append_nil]
      exact hsends
    · rw [hrun]
      change s'.openPositions = _
      rw [hs']

/-- One rebalance. -/
lemma follows_rebalance {loaded : List Text} {n : ℕ} {r : Rebalance} {w : CrossState × Outbox}
    (hn : n ≤ w.2.dispatcher.stream.length)
    (h : SameIds (bookIds w.1.openPositions) (w.2.openIds loaded n))
    (hkept : Kept x digest uuid4 env r w) :
    n ≤ (x.rebalance digest uuid4 env r w).2.dispatcher.stream.length ∧
      SameIds (bookIds (x.rebalance digest uuid4 env r w).1.openPositions)
        ((x.rebalance digest uuid4 env r w).2.openIds loaded n) := by
  obtain ⟨closes, opens, hsends, hcloses, hopens, hend⟩ := rebalance_sends x digest uuid4 env r w
  obtain ⟨hlength, hids⟩ := hsends.openIds loaded hn
  refine ⟨hlength, ?_⟩
  unfold Kept at hkept
  rw [hsends.since_eq] at hkept
  rw [hids]
  rcases hend with ⟨hraises, hcalls, hbook⟩ | ⟨rfl, hbook, last, hlast, hraised⟩
  · rcases hkept with ⟨hpublished, hfollow⟩ | ⟨-, hclosed, last, hlast, hlost⟩
    · have hfilter : ((closes ++ opens).filter fun e => decide (e.1.type = "OPEN")) = opens := by
        have hnone : (closes.filter fun e => decide (e.1.type = "OPEN")) = [] := by
          refine List.filter_eq_nil_iff.mpr fun e he => ?_
          rw [hcloses e he]
          decide
        have hall : (opens.filter fun e => decide (e.1.type = "OPEN")) = opens :=
          List.filter_eq_self.mpr fun e he => decide_eq_true (hopens e he)
        rw [List.filter_append, hnone, hall, List.nil_append]
      rw [hfilter] at hfollow
      -- the CLOSEs leave nothing open
      have hnone : noteAll (w.2.openIds loaded n) closes = [] := by
        refine List.eq_nil_iff_forall_not_mem.mpr fun pid hpid => ?_
        have hpublished' : ∀ e ∈ closes, e.2 = .published :=
          fun e he => hpublished e (List.mem_append_left _ he) (hcloses e he)
        obtain ⟨hopen, hother⟩ := (noteAll_closes _ _ hcalls hpublished' _ pid).mp hpid
        obtain ⟨e, he, hid⟩ := mem_bookIds.mp ((h pid).mpr hopen)
        refine hother e ?_ hid.symm
        rw [adopted, rows_foldl_adopt]
        exact List.mem_append_left _ he
      rw [noteAll_append, hnone]
      exact hbook hfollow
    · have hmem : last ∈ closes ++ opens := List.mem_of_getLast? hlast
      rcases List.mem_append.mp hmem with hmem | hmem
      · have hraise := hraises last hmem
        rw [hlost] at hraise
        cases hraise
      · have htype := hopens last hmem
        rw [(hclosed last (List.mem_append_right _ hmem)).1] at htype
        exact absurd htype (by decide)
  · rw [List.append_nil] at hkept ⊢
    rcases hkept with ⟨hpublished, -⟩ | ⟨hnone, hclosed, -⟩
    · have hmem : last ∈ closes := List.mem_of_getLast? hlast
      rw [hpublished last hmem (hcloses last hmem)] at hraised
      cases hraised
    · rw [noteAll_of_not_appended (fun e he => (hclosed e he).2), hbook, hnone]
      exact h

end Dispatches

end CrossSectional

end PaperTrade.Runner
