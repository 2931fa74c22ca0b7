import PaperTrade.Runner.Acts
import PaperTrade.Runner.XauBook
import PaperTrade.Runner.XauDivisions

/-!
# What every run of `XauM30RunnerStrategy` keeps

Bar exits, price alerts and openings are moves of the book, so every event of the strategy is a number of
moves. A dispatch that raises ends the event before the book is changed: its signal has been tried, and the
next bar may try it again. Beside the run a ledger keeps the openings with their ATRs, and the signals whose
dispatch has returned; where every append is acknowledged these are all signals.
-/

namespace PaperTrade.Runner

open PaperTrade.Runtime Dispatcher

namespace XauM30

variable {x : XauM30} {digest : Logical → String} {uuid5 : String → String} {zone : ℤ → ℕ × ℕ}
  {env : ℕ → DispatchEnv}

/-! ## Events as moves -/

/-- The signals of a method whose dispatch has returned. -/
def returned (r : Except StrategyError Unit) (cs : List Call) : List Call :=
  if r = .error .appendRaised then cs.dropLast else cs

/-- The signals of a method are moves of the book. If a dispatch raises it is the last one, and its move is
not made. -/
inductive Handled (x : XauM30) (env : ℕ → DispatchEnv) (atr : ℚ) (book : Book) :
    Except StrategyError Unit → List Call → Book → Prop
  | ended {r : Except StrategyError Unit} {cs : List Call} {book' : Book} (hr : r ≠ .error .appendRaised)
    (hmoves : Moves x atr book cs book') : Handled x env atr book r cs book'
  | raised {done : List Call} {c : Call} {book' next : Book} (hmoves : Moves x atr book done book')
    (hmove : Move x atr book' c next) (henv : ¬ Acknowledges env) :
    Handled x env atr book (.error .appendRaised) (done ++ [c]) book'

section Handled

variable {atr : ℚ} {book book' : Book} {r : Except StrategyError Unit} {cs : List Call}

lemma ok_ne_raised : (.ok () : Except StrategyError Unit) ≠ .error .appendRaised := by simp

/-- The book goes along with the signals that have returned. -/
lemma Handled.moves_returned (h : x.Handled env atr book r cs book') :
    Moves x atr book (returned r cs) book' := by
  cases h with
  | ended hr hmoves =>
    rw [returned, if_neg hr]
    exact hmoves
  | raised hmoves hmove henv =>
    rw [returned, if_pos rfl, List.dropLast_concat]
    exact hmoves

/-- All signals that have been tried are moves. -/
lemma Handled.moves_tried (h : x.Handled env atr book r cs book') : ∃ next, Moves x atr book cs next := by
  cases h with
  | ended hr hmoves => exact ⟨book', hmoves⟩
  | raised hmoves hmove henv => exact ⟨_, hmoves.append (.single hmove)⟩

lemma Handled.returned_eq (h : x.Handled env atr book r cs book') (henv : Acknowledges env) :
    returned r cs = cs := by
  cases h with
  | ended hr hmoves => exact if_neg hr
  | raised hmoves hmove hnot => exact absurd henv hnot

/-- A method after moves that have been made. -/
lemma Handled.after {done : List Call} {mid : Book} (hdone : Moves x atr book done mid)
    (h : x.Handled env atr mid r cs book') : x.Handled env atr book r (done ++ cs) book' := by
  cases h with
  | ended hr hmoves => exact .ended hr (hdone.append hmoves)
  | raised hmoves hmove henv =>
    rw [← List.append_assoc]
    exact .raised (hdone.append hmoves) hmove henv

end Handled

/-- What a method may end with: its signals are moves, and `P` holds of each of them. -/
def Moving (x : XauM30) (env : ℕ → DispatchEnv) (atr : ℚ) (book : Book) (P : Call → Prop) :
    Effect XauState Unit := fun r cs s' => x.Handled env atr book r cs s'.positions ∧ ∀ c ∈ cs, P c

lemma moving_nothing {s : XauState} {atr : ℚ} {P : Call → Prop} :
    x.Moving env atr s.positions P (.ok ()) [] s :=
  ⟨.ended ok_ne_raised (.nil _), fun _ hc => absurd hc List.not_mem_nil⟩

/-- A dispatch and the change of the book that follows it. -/
lemma moving_emit {s : XauState} {atr : ℚ} {c : Call} {f : Book → Book} {P : Call → Prop}
    (htime : ∀ now, encodable (c.timestamp now) = true) (hmove : Move x atr s.positions c (f s.positions))
    (hc : P c) :
    Acts (emitSignal digest env c >>= fun _ =>
      modifyState fun s : XauState => { s with positions := f s.positions }) s
      (x.Moving env atr s.positions P) := by
  have hall : ∀ c' ∈ [c], P c' := fun c' hc' => List.mem_singleton.mp hc' ▸ hc
  have hreturns : Acts (modifyState fun s : XauState => { s with positions := f s.positions }) s
      fun r cs s' => x.Moving env atr s.positions P r (c :: cs) s' :=
    Acts.modify ⟨.ended ok_ne_raised (.single hmove), hall⟩
  by_cases henv : Acknowledges env
  · exact Acts.emit_bind_ok henv htime hreturns
  · exact Acts.emit_bind hreturns ⟨.raised (.nil _) hmove henv, hall⟩

/-- One method after another one. -/
lemma moving_bind {p q : Method XauState Unit} {s : XauState} {atr : ℚ} {P P' : Call → Prop}
    (hp : Acts p s (x.Moving env atr s.positions P))
    (hq : ∀ (cs : List Call) (s' : XauState), Moves x atr s.positions cs s'.positions → (∀ c ∈ cs, P c) →
      Acts q s' (x.Moving env atr s'.positions P')) :
    Acts (p >>= fun _ => q) s (x.Moving env atr s.positions fun c => P c ∨ P' c) := by
  refine Acts.bind (hp.mono fun r cs s' hpost => ?_)
  obtain ⟨hhandled, hall⟩ := hpost
  refine ⟨fun a ha => ?_, fun e he => ?_⟩
  · subst ha
    have hmoves := hhandled.moves_returned
    refine (hq cs s' hmoves hall).mono fun r' cs' s'' hpost' => ?_
    refine ⟨.after hmoves hpost'.1, fun c hc => ?_⟩
    exact (List.mem_append.mp hc).imp (hall c) (hpost'.2 c)
  · subst he
    exact ⟨hhandled, fun c hc => .inl (hall c hc)⟩

lemma Moving.imp {s : XauState} {atr : ℚ} {P P' : Call → Prop} (h : ∀ c, P c → P' c)
    {p : Method XauState Unit} (hp : Acts p s (x.Moving env atr s.positions P)) :
    Acts p s (x.Moving env atr s.positions P') :=
  hp.mono fun _ _ _ hpost => ⟨hpost.1, fun c hc => h c (hpost.2 c hc)⟩

/-! ## Bar exits and price alerts -/

/-- A signal of one position that does not open it. -/
def Tends (id : String) (c : Call) : Prop := positionIdOf c = some id ∧ c.type ≠ "OPEN"

/-- Moves of one position leave the others alone. -/
lemma get?_of_moves {atr : ℚ} {book book' : Book} {cs : List Call} {id k : String} (hne : k ≠ id)
    (hmoves : Moves x atr book cs book') (hcs : ∀ c ∈ cs, positionIdOf c = some id) :
    book'.get? k = book.get? k := by
  induction hmoves with
  | nil => rfl
  | cons hmove _ ih =>
    rw [ih fun c hc => hcs c (List.mem_cons_of_mem _ hc)]
    have hid := hcs _ List.mem_cons_self
    cases hmove with
    | @close id' reason price executable source =>
      have hid' : id' = id := Option.some_inj.mp hid
      exact get?_erase_of_ne _ (hid' ▸ hne)
    | @tighten id' p hheld hfirst =>
      have hid' : id' = id := Option.some_inj.mp hid
      rw [Dict.get?_set, if_neg (hid' ▸ hne)]
    | @opened p t hroom hbracket hspaced =>
      have hid' : p.positionId = id := Option.some_inj.mp hid
      rw [Dict.get?_set, if_neg (hid' ▸ hne)]

section Methods

variable {s : XauState} (atr : ℚ)

lemma acts_closePosition (id reason : String) (price : ℚ) (executable : Bool) (source : String) :
    Acts (x.closePosition digest env id reason price executable source) s
      (x.Moving env atr s.positions (Tends id)) := by
  have htype : ("CLOSE" : String) ≠ "OPEN" := by decide
  exact moving_emit (f := fun book => book.erase id) (fun _ => rfl)
    (.close reason price executable source) ⟨rfl, htype⟩

lemma acts_manageOne (price e50 : ℚ) {id : String} {p : XauPosition} (hheld : s.positions.get? id = some p) :
    Acts (x.manageOne digest env price e50 id p) s (x.Moving env atr s.positions (Tends id)) := by
  unfold manageOne
  split
  · exact acts_closePosition atr _ _ _ _ _
  · split
    · rename_i hdue
      have hfirst : p.breakeven = false := by
        unfold breakevenDue at hdue
        rw [Bool.and_eq_true, Bool.not_eq_true'] at hdue
        exact hdue.2
      have htype : ("MODIFY" : String) ≠ "OPEN" := by decide
      exact moving_emit (f := fun book => book.set id { p with sl := p.entry, breakeven := true })
        (fun _ => rfl) (.tighten hheld hfirst) ⟨rfl, htype⟩
    · exact Acts.pure moving_nothing

/-- The loop meets every position as the book holds it. -/
lemma acts_manageEach (price e50 : ℚ) {rows : List (String × XauPosition)}
    (hheld : ∀ row ∈ rows, s.positions.get? row.1 = some row.2) (hnodup : (rows.map Prod.fst).Nodup) :
    Acts (x.manageEach digest env price e50 rows) s
      (x.Moving env atr s.positions fun c => c.type ≠ "OPEN") := by
  induction rows generalizing s with
  | nil => exact Acts.pure moving_nothing
  | cons row rest ih =>
    obtain ⟨hrow, hrest⟩ := List.nodup_cons.mp hnodup
    have hfirst : Acts (x.manageOne digest env price e50 row.1 row.2) s
        (x.Moving env atr s.positions (Tends row.1)) :=
      acts_manageOne atr price e50 (hheld row List.mem_cons_self)
    have hboth : Acts (x.manageEach digest env price e50 (row :: rest)) s
        (x.Moving env atr s.positions fun c => Tends row.1 c ∨ c.type ≠ "OPEN") := by
      refine moving_bind hfirst fun cs s' hmoves htends => ih ?_ hrest
      intro row' hrow'
      have hne : row'.1 ≠ row.1 := fun heq => hrow (heq ▸ List.mem_map_of_mem hrow')
      rw [get?_of_moves hne hmoves fun c hc => (htends c hc).1]
      exact hheld row' (List.mem_cons_of_mem _ hrow')
    exact Moving.imp (fun c hc => hc.elim And.right id) hboth

lemma held_rows (book : Book) : ∀ row ∈ book.rows, book.get? row.1 = some row.2 :=
  fun _ hrow => (Dict.get?_some_iff _ _ _).mpr hrow

lemma acts_manageOnBar (m30 : List ExactCandle) :
    Acts (x.manageOnBar digest env m30) s (x.Moving env atr s.positions fun c => c.type ≠ "OPEN") := by
  unfold manageOnBar
  split
  · exact Acts.get_bind (acts_manageEach atr _ _ (held_rows _) s.positions.nodup_keys)
  · exact Acts.pure moving_nothing

lemma acts_alertEach (price : ℚ) (rows : List (String × XauPosition)) :
    Acts (x.alertEach digest env price rows) s
      (x.Moving env atr s.positions fun c => c.type ≠ "OPEN") := by
  induction rows generalizing s with
  | nil => exact Acts.pure moving_nothing
  | cons row rest ih =>
    have hfirst : Acts (x.alertOne digest env price row.1 row.2) s
        (x.Moving env atr s.positions (Tends row.1)) := by
      unfold alertOne
      split
      · exact acts_closePosition atr _ _ _ _ _
      · exact Acts.pure moving_nothing
    have hboth : Acts (x.alertEach digest env price (row :: rest)) s
        (x.Moving env atr s.positions fun c => Tends row.1 c ∨ c.type ≠ "OPEN") :=
      moving_bind hfirst fun cs s' hmoves htends => ih
    exact Moving.imp (fun c hc => hc.elim And.right id) hboth

lemma acts_onPriceAlert (symbol : String) (price : ℚ) :
    Acts (x.onPriceAlert digest env symbol price) s
      (x.Moving env atr s.positions fun c => c.type ≠ "OPEN") := by
  unfold onPriceAlert
  split
  · exact Acts.pure moving_nothing
  · exact Acts.get_bind (acts_alertEach atr _ _)

end Methods

/-! ## Openings -/

/-- A result that is not one of a dispatch. -/
def Computed {α : Type} (r : Except StrategyError α) : Prop := r ≠ .error .appendRaised

lemma computed_ok {α : Type} (a : α) : Computed (.ok a : Except StrategyError α) := by simp [Computed]

lemma Computed.bind {α β : Type} {r : Except StrategyError α} {k : α → Except StrategyError β}
    (hr : Computed r) (hk : ∀ a, Computed (k a)) : Computed (r >>= k) := by
  cases r with
  | ok a => exact hk a
  | error e => exact fun h => hr (congrArg _ (Except.error.inj h))

lemma computed_pyDiv (a b : ℚ) : Computed (pyDiv a b) := by
  unfold pyDiv
  split
  · simp [Computed]
  · exact computed_ok _

lemma computed_median (values : List ℚ) : Computed (median values) := by
  unfold median
  split
  · simp [Computed]
  · exact computed_ok _

lemma computed_positionQty (entry risk : ℚ) : Computed (x.positionQty entry risk) :=
  (computed_pyDiv _ _).bind fun _ => (computed_pyDiv _ _).bind fun _ => computed_ok _

lemma computed_matchesSide (s : List ExactCandle) (v : Indicators) (side : Side) :
    Computed (x.matchesSide s v side) := by
  unfold matchesSide
  dsimp only
  split
  · exact computed_ok _
  · split
    · unfold matches12
      split
      · exact computed_ok _
      · exact (computed_median _).bind fun _ => (computed_pyDiv _ _).bind fun _ => computed_ok _
    · split
      · unfold matches11
        split
        · exact computed_ok _
        · exact (computed_median _).bind fun _ => (computed_pyDiv _ _).bind fun _ => computed_ok _
      · split <;> exact computed_ok _

lemma computed_firstMatch (s : List ExactCandle) (v : Indicators) (macroTrend : Option Side)
    (sides : List Side) : Computed (x.firstMatch s v macroTrend sides) := by
  induction sides with
  | nil => exact computed_ok _
  | cons side rest ih =>
    unfold firstMatch
    split
    · exact ih
    · refine (computed_matchesSide s v side).bind fun found => ?_
      split
      · exact computed_ok _
      · exact ih

lemma computed_entrySide (s h4 : List ExactCandle) : Computed (x.entrySide s h4) := by
  unfold entrySide
  rw [rsi_eq, atr_eq]
  refine (computed_ok _).bind fun _ => (computed_ok _).bind fun _ => ?_
  split
  · exact computed_ok _
  · dsimp only
    generalize (if x.preset.macroGated = true then macroSide h4 else none) = macroTrend
    split
    · exact computed_ok _
    · exact computed_firstMatch _ _ _ _

lemma moving_error {α : Type} {s : XauState} {atr : ℚ} {P : Call → Prop} {r : Except StrategyError α}
    (hr : Computed r) {e : StrategyError} (he : r = .error e) :
    x.Moving env atr s.positions P (.error e) [] s := by
  subst he
  exact ⟨.ended (fun h => hr (congrArg _ (Except.error.inj h))) (.nil _),
    fun _ hc => absurd hc List.not_mem_nil⟩

/-- `_entry_side` answers a side only if the last ATR is positive. -/
lemma lastAtr_pos {m30 h4 : List ExactCandle} {side : Side} (h : x.entrySide m30 h4 = .ok (some side)) :
    0 < lastAtr m30 := by
  unfold entrySide at h
  rw [rsi_eq, atr_eq] at h
  by_contra hnot
  change (if lastAtr m30 ≤ 0 then Except.ok none else _) = _ at h
  rw [if_pos (not_lt.mp hnot)] at h
  cases h

/-- `_open_if_allowed` opens where there is room, far enough from the positions of the side. -/
lemma acts_openIfAllowed (hfunds : 0 < x.capital * x.leverage) {m30 : List ExactCandle}
    (hwf : ∀ c ∈ m30, c.WellFormed) (hne : 0 < m30.length) (hatr : 0 < lastAtr m30) (side : Side) (t : ℤ)
    {s : XauState} :
    Acts (x.openIfAllowed digest uuid5 env side m30 t) s
      (x.Moving env (lastAtr m30) s.positions fun c => c.type = "OPEN") := by
  refine Acts.get_bind ?_
  split
  · exact Acts.pure moving_nothing
  · rename_i hfull
    refine Acts.ofExcept_bind (fun atrs hatrs => ?_) fun e he => ?_
    · rw [atr_eq] at hatrs
      obtain rfl := Except.ok.inj hatrs
      have hstop := lossSide_stopPrice (x := x) hwf hne hatr side
      dsimp only
      split
      · exact Acts.pure moving_nothing
      · rename_i hfar
        split
        · exact Acts.pure moving_nothing
        · split
          · exact Acts.pure moving_nothing
          · refine Acts.ofExcept_bind (fun qty hqty => ?_) fun e he => ?_
            · split
              · exact Acts.pure moving_nothing
              · rename_i hlarge
                refine moving_emit (f := fun book => book.set _ _) (fun _ => rfl)
                  (.opened (not_le.mp hfull) (bracketed_newPosition hfunds hstop hqty hlarge _) ?_) rfl
                intro id q hq hside
                have hmem : q ∈ sameSide s side := by
                  refine List.mem_filter.mpr ⟨List.mem_map.mpr ⟨(id, q), ?_, rfl⟩, decide_eq_true hside⟩
                  exact (Dict.get?_some_iff _ _ _).mp hq
                rw [tooClose, List.any_eq_true, not_exists] at hfar
                by_contra hclose
                exact hfar q ⟨hmem, decide_eq_true (not_le.mp hclose)⟩
            · exact moving_error (computed_positionQty _ _) he
    · rw [atr_eq] at he
      cases he

lemma acts_enter (hfunds : 0 < x.capital * x.leverage) {m30 : List ExactCandle}
    (hwf : ∀ c ∈ m30, c.WellFormed) (hne : 0 < m30.length) (h4 : List ExactCandle) (t : ℤ) (canOpen : Bool)
    {s : XauState} :
    Acts (x.enter digest uuid5 zone env m30 h4 t canOpen) s
      (x.Moving env (lastAtr m30) s.positions fun c => c.type = "OPEN") := by
  unfold enter
  split
  · exact Acts.pure moving_nothing
  · refine Acts.ofExcept_bind (fun side hside => ?_) fun e he => moving_error (computed_entrySide _ _) he
    cases side with
    | none => exact Acts.pure moving_nothing
    | some side => exact acts_openIfAllowed hfunds hwf hne (lastAtr_pos hside) side t

/-! ## One event -/

/-- The last ATR of the candles that an event brings. -/
def atrOf (x : XauM30) : Event → ℚ
  | .scan m15 _ _ => lastAtr (x.m30Series m15)
  | .kline _ _ | .alert _ _ => 0

/-- A stop that a MODIFY moves to the entry was on the loss side of it. -/
def Tightens (book : Book) (c : Call) : Prop :=
  ∃ id p, c = modifyCall x id p.entry ∧ book.get? id = some p ∧ p.breakeven = false

lemma tightens_of_moves {atr : ℚ} {book book' : Book} {cs : List Call} (hmoves : Moves x atr book cs book')
    (hcs : ∀ c ∈ cs, c.type ≠ "OPEN") :
    ∀ c ∈ cs, c.type = "MODIFY" → Tightens (x := x) book c := by
  induction hmoves with
  | nil => exact fun c hc => absurd hc List.not_mem_nil
  | cons hmove _ ih =>
    intro c hc htype
    rcases List.mem_cons.mp hc with rfl | hc
    · cases hmove with
      | close reason price executable source =>
        have hother : ("CLOSE" : String) = "MODIFY" := htype
        exact absurd hother (by decide)
      | tighten hheld hfirst => exact ⟨_, _, rfl, hheld, hfirst⟩
      | opened hroom hbracket hspaced =>
        have hother : ("OPEN" : String) = "MODIFY" := htype
        exact absurd hother (by decide)
    · obtain ⟨id, p, hcall, hheld, hfirst⟩ := ih (fun c hc => hcs c (List.mem_cons_of_mem _ hc)) c hc htype
      refine ⟨id, p, hcall, ?_, hfirst⟩
      cases hmove with
      | close reason price executable source => exact (get?_of_erase hheld).2
      | tighten hheld' hfirst' =>
        rw [Dict.get?_set] at hheld
        split at hheld
        · cases hheld
          cases hfirst
        · exact hheld
      | opened hroom hbracket hspaced => exact absurd rfl (hcs _ List.mem_cons_self)

/-- What the signals of an event do: they are moves, and the MODIFYs are for positions that were held before
the event. -/
def Working (x : XauM30) (env : ℕ → DispatchEnv) (atr : ℚ) (book : Book) : Effect XauState Unit :=
  fun r cs s' => x.Handled env atr book r cs s'.positions ∧
    ∀ c ∈ cs, c.type = "MODIFY" → Tightens (x := x) book c

section Working

variable {s : XauState} {atr : ℚ}

lemma working_nothing : x.Working env atr s.positions (.ok ()) [] s :=
  ⟨.ended ok_ne_raised (.nil _), fun _ hc => absurd hc List.not_mem_nil⟩

lemma working_of_moving {p : Method XauState Unit}
    (hp : Acts p s (x.Moving env atr s.positions fun c => c.type ≠ "OPEN")) :
    Acts p s (x.Working env atr s.positions) := by
  refine hp.mono fun r cs s' hpost => ⟨hpost.1, ?_⟩
  obtain ⟨next, hmoves⟩ := hpost.1.moves_tried
  exact tightens_of_moves hmoves hpost.2

/-- Openings after bar exits. -/
lemma working_bind {p q : Method XauState Unit} (hp : Acts p s (x.Working env atr s.positions))
    (hq : ∀ s', Acts q s' (x.Moving env atr s'.positions fun c => c.type = "OPEN")) :
    Acts (p >>= fun _ => q) s (x.Working env atr s.positions) := by
  refine Acts.bind (hp.mono fun r cs s' hpost => ?_)
  obtain ⟨hhandled, htightens⟩ := hpost
  refine ⟨fun a ha => ?_, fun e he => ?_⟩
  · subst ha
    refine (hq s').mono fun r' cs' s'' hpost' => ⟨.after hhandled.moves_returned hpost'.1, ?_⟩
    intro c hc htype
    rcases List.mem_append.mp hc with hc | hc
    · exact htightens c hc htype
    · have hopen : c.type = "OPEN" := hpost'.2 c hc
      rw [hopen] at htype
      exact absurd htype (by decide)
  · subst he
    exact ⟨hhandled, htightens⟩

/-- A scan that is due has candles. -/
lemma length_pos_of_due {m15 h4 : List ExactCandle} {t : ℤ} (hdue : x.due s m15 h4 = some t) :
    0 < (x.m30Series m15).length := by
  unfold due at hdue
  split at hdue
  · split at hdue
    · cases hdue
    · rename_i hnot
      rw [not_or, not_lt] at hnot
      exact (by decide : 0 < 80).trans_le hnot.1
  · cases hdue

lemma acts_scan (hfunds : 0 < x.capital * x.leverage) {m15 : List ExactCandle} (hwf : ∀ c ∈ m15, c.WellFormed)
    (h4 : List ExactCandle) (canOpen : Bool) :
    Acts (x.scan digest uuid5 zone env m15 h4 canOpen) s
      (x.Working env (lastAtr (x.m30Series m15)) s.positions) := by
  refine Acts.get_bind ?_
  cases hdue : x.due s m15 h4 with
  | none => exact Acts.pure working_nothing
  | some t =>
    refine Acts.modify_bind ?_
    exact working_bind (working_of_moving (acts_manageOnBar _ _)) fun s' =>
      acts_enter hfunds (m30Series_wellFormed hwf) (length_pos_of_due hdue) _ t canOpen

end Working

/-! ## The run -/

/-- What is written down beside a run: the openings with their ATRs, the latest one first, and the signals
whose dispatch has returned. -/
structure Ledger where
  openings : List (String × ℚ) := []
  accepted : List Call := []

/-- The candles of a scan are well-formed. -/
def Event.WellFormed : Event → Prop
  | .scan m15 _ _ => ∀ c ∈ m15, c.WellFormed
  | .kline _ _ | .alert _ _ => True

instance : (e : Event) → Decidable e.WellFormed
  | .scan m15 _ _ => inferInstanceAs (Decidable (∀ c ∈ m15, c.WellFormed))
  | .kline _ _ => inferInstanceAs (Decidable True)
  | .alert _ _ => inferInstanceAs (Decidable True)

section Run

variable (x : XauM30) (digest : Logical → String) (uuid5 : String → String) (zone : ℤ → ℕ × ℕ)
  (env : ℕ → DispatchEnv)

/-- How the handler of an event ends. -/
def outcome (w : XauState × Outbox) : Event → Except StrategyError Unit
  | .kline _ _ => .ok ()
  | .scan m15 h4 canOpen => ((x.scan digest uuid5 zone env m15 h4 canOpen).run w).1
  | .alert symbol price => ((x.onPriceAlert digest env symbol price).run w).1

/-- The signals of an event. -/
def sentBy (w : XauState × Outbox) (e : Event) : List Call :=
  sentSince w (x.step digest uuid5 zone env w e)

/-- The signals of an event whose dispatch has returned. -/
def acceptedBy (w : XauState × Outbox) (e : Event) : List Call :=
  returned (x.outcome digest uuid5 zone env w e) (x.sentBy digest uuid5 zone env w e)

/-- One event, with the ledger. -/
def ledgerStep (w : (XauState × Outbox) × Ledger) (e : Event) : (XauState × Outbox) × Ledger :=
  (x.step digest uuid5 zone env w.1 e,
    { openings := (x.acceptedBy digest uuid5 zone env w.1 e).foldl (record (x.atrOf e)) w.2.openings
      accepted := w.2.accepted ++ x.acceptedBy digest uuid5 zone env w.1 e })

/-- The discipline of one event: the book after it is within the cap and its positions apart, every OPEN is
bracketed, and a MODIFY tightens the stop of a position that has not had one. A dispatch that raises is not
counted there, because the next bar tries it again. -/
structure Disciplined (w : (XauState × Outbox) × Ledger) (e : Event) : Prop where
  capped : (ledgerStep x digest uuid5 zone env w e).1.1.positions.rows.length ≤ x.preset.maxPositions
  bracketed : ∀ c ∈ x.sentBy digest uuid5 zone env w.1 e, c.type = "OPEN" →
    ∃ p t, c = x.openCall p t ∧ x.Bracketed p
  recorded : ∀ id p, (ledgerStep x digest uuid5 zone env w e).1.1.positions.get? id = some p →
    id ∈ (ledgerStep x digest uuid5 zone env w e).2.openings.map Prod.fst
  apart : Apart (ledgerStep x digest uuid5 zone env w e).2.openings
    (ledgerStep x digest uuid5 zone env w e).1.1.positions
  tightened : ∀ c ∈ x.sentBy digest uuid5 zone env w.1 e, c.type = "MODIFY" →
    ∃ id p, c = x.modifyCall id p.entry ∧ w.1.1.positions.get? id = some p ∧
      LossSide p.entry p.sl p.side
  once : ∀ id, breakevens id (ledgerStep x digest uuid5 zone env w e).2.accepted ≤ 1
  complete : Acknowledges env → (ledgerStep x digest uuid5 zone env w e).2.accepted =
    calls (ledgerStep x digest uuid5 zone env w e).1.2.history

end Run

section Steps

variable (digest uuid5 zone)

/-- The signals of an event, and the history after it. -/
lemma working_step (hfunds : 0 < x.capital * x.leverage) (w : XauState × Outbox) {e : Event}
    (he : e.WellFormed) :
    x.Working env (x.atrOf e) w.1.positions (x.outcome digest uuid5 zone env w e)
        (x.sentBy digest uuid5 zone env w e) (x.step digest uuid5 zone env w e).1 ∧
      calls (x.step digest uuid5 zone env w e).2.history =
        calls w.2.history ++ x.sentBy digest uuid5 zone env w e := by
  cases e with
  | kline ready latest =>
    have hpositions : (x.shouldScanAfterEvent ready latest w.1).positions = w.1.positions := by
      unfold shouldScanAfterEvent
      split
      · dsimp only
        split
        · rfl
        · split <;> rfl
      · rfl
    have hsent : x.sentBy digest uuid5 zone env w (.kline ready latest) = [] :=
      sentSince_eq (List.append_nil _).symm
    rw [hsent]
    refine ⟨⟨.ended ok_ne_raised ?_, fun _ hc => absurd hc List.not_mem_nil⟩, (List.append_nil _).symm⟩
    show Moves x _ w.1.positions [] (x.shouldScanAfterEvent ready latest w.1).positions
    rw [hpositions]
    exact .nil _
  | scan m15 h4 canOpen =>
    have hacts : Acts (x.scan digest uuid5 zone env m15 h4 canOpen) w.1
        (x.Working env (lastAtr (x.m30Series m15)) w.1.positions) := acts_scan hfunds he h4 canOpen
    exact ⟨hacts.run w.2, hacts.calls_run w.2⟩
  | alert symbol price =>
    have hacts : Acts (x.onPriceAlert digest env symbol price) w.1
        (x.Working env 0 w.1.positions) := working_of_moving (acts_onPriceAlert 0 symbol price)
    exact ⟨hacts.run w.2, hacts.calls_run w.2⟩

/-- What holds between two events. -/
def Kept (x : XauM30) (env : ℕ → DispatchEnv) (w : (XauState × Outbox) × Ledger) : Prop :=
  x.Sound w.1.1.positions w.2.openings w.2.accepted ∧
    (Acknowledges env → w.2.accepted = calls w.1.2.history)

lemma kept_step (hfunds : 0 < x.capital * x.leverage) {w : (XauState × Outbox) × Ledger}
    (h : x.Kept env w) {e : Event} (he : e.WellFormed) :
    x.Kept env (x.ledgerStep digest uuid5 zone env w e) := by
  obtain ⟨⟨hhandled, -⟩, hcalls⟩ := working_step digest uuid5 zone hfunds w.1 he
  refine ⟨sound_moves h.1 hhandled.moves_returned, fun henv => ?_⟩
  show w.2.accepted ++ returned _ _ = calls (x.step digest uuid5 zone env w.1 e).2.history
  rw [hcalls, hhandled.returned_eq henv, h.2 henv]

lemma disciplined_step (hfunds : 0 < x.capital * x.leverage) {w : (XauState × Outbox) × Ledger}
    (h : x.Kept env w) {e : Event} (he : e.WellFormed) :
    x.Disciplined digest uuid5 zone env w e := by
  obtain ⟨⟨hhandled, htightens⟩, -⟩ := working_step digest uuid5 zone hfunds w.1 he
  obtain ⟨next, htried⟩ := hhandled.moves_tried
  obtain ⟨hsound, hcomplete⟩ := kept_step digest uuid5 zone hfunds h he
  refine ⟨hsound.capped, bracketed_of_moves htried, hsound.recorded, hsound.apart, fun c hc htype => ?_,
    hsound.once, hcomplete⟩
  obtain ⟨id, p, hcall, hheld, hfirst⟩ := htightens c hc htype
  exact ⟨id, p, hcall, hheld, h.1.stops id p hheld hfirst⟩

end Steps

/-- Every event of a run from an empty book keeps the cap, the brackets and the distances, and moves a stop
to the entry once and only from the loss side. -/
theorem along_disciplined (x : XauM30) (hcapital : 0 < x.capital) (hleverage : 0 < x.leverage)
    (digest : Logical → String) (uuid5 : String → String) (zone : ℤ → ℕ × ℕ) (env : ℕ → DispatchEnv)
    (d : Dispatcher) {events : List Event} (hevents : ∀ e ∈ events, e.WellFormed) :
    Along (x.ledgerStep digest uuid5 zone env) (x.Disciplined digest uuid5 zone env)
      (({}, { dispatcher := d }), {}) events := by
  have hfunds := mul_pos hcapital hleverage
  have hstart : x.Kept env (({}, { dispatcher := d }), {}) :=
    ⟨⟨Nat.zero_le _, List.Pairwise.nil, nofun, nofun, nofun, fun _ => Nat.zero_le 1⟩, fun _ => rfl⟩
  exact Along.of_inv (fun w e h he => kept_step digest uuid5 zone hfunds h he) (fun w e h he => disciplined_step digest uuid5 zone hfunds h he)
    hstart (Along.of_mem hevents _)

/-- The market rises, an M30 candle closes, and a price alert comes. -/
def risingDay : List Event :=
  [.kline true (some (wednesday + m15Ms * 159)), .scan (stillThenRising 80) risenH4 true,
    .alert "XAUUSDT" 2100]

theorem risingDay_disciplined :
    Along (breakoutXau.ledgerStep typeDigest id thursdayNoon quietEnv)
      (breakoutXau.Disciplined typeDigest id thursdayNoon quietEnv) (({}, { dispatcher := {} }), {})
      risingDay :=
  along_disciplined breakoutXau (by norm_num [breakoutXau]) (by norm_num [breakoutXau]) typeDigest id
    thursdayNoon quietEnv {} (by decide +kernel)

end XauM30

end PaperTrade.Runner
