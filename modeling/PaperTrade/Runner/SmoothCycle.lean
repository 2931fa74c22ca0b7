import PaperTrade.Runner.FlipTrades

/-!
# The book of `SmoothChanRunnerStrategy` and its direction

The Supertrend of this strategy has no direction on too few candles. Where a position is held then, the
direction that is remembered is none of its side; in every other scan the book follows the direction.
-/

namespace PaperTrade.Runner

open PaperTrade.Runtime Dispatcher

/-! ## The directions of `compute_supertrend_multi` -/

lemma isDirection_first (factor : PyFloat) (c : Candle) (atr : PyFloat) :
    IsDirection (MultiBands.first factor c atr).direction := by
  unfold MultiBands.first
  dsimp only
  split
  · exact .inl rfl
  · exact .inr rfl

lemma isDirection_multiNext (factor : PyFloat) (prev : MultiBands) (c : Candle) (atr : PyFloat) :
    IsDirection (prev.next factor c atr).direction := by
  have hcases : ∀ (P Q R : Prop) [Decidable P] [Decidable Q] [Decidable R] (a b c d : MultiBands),
      IsDirection a.direction → IsDirection b.direction → IsDirection c.direction →
      IsDirection d.direction →
      IsDirection (if P then (if Q then a else b) else (if R then c else d)).direction := by
    intro P Q R _ _ _ a b c d ha hb hc hd
    split
    · split
      · exact ha
      · exact hb
    · split
      · exact hc
      · exact hd
  exact hcases _ _ _ _ _ _ _ (.inr rfl) (.inl rfl) (.inl rfl) (.inr rfl)

lemma isDirection_multiLoop (factor : PyFloat) (candles : List Candle) (b : MultiBands)
    (atrs : List PyFloat) : ∀ d ∈ multiLoop factor b candles atrs, IsDirection d := by
  induction candles generalizing b atrs with
  | nil =>
    intro d hd
    rw [multiLoop] at hd
    · exact absurd hd List.not_mem_nil
    · intro _ _ _ _ h
      cases h
  | cons c candles ih =>
    cases atrs with
    | nil => exact fun d hd => absurd hd List.not_mem_nil
    | cons atr atrs =>
      intro d hd
      rcases List.mem_cons.mp hd with rfl | hd
      · exact isDirection_multiNext factor b c atr
      · exact ih _ _ d hd

lemma length_trueRanges (candles : List Candle) : (trueRanges candles).length = candles.length := by
  cases candles with
  | nil => rfl
  | cons c rest => simp [trueRanges]

/-- From the seed of the ATR on there is a direction. -/
lemma isDirection_multiDirections (factor : PyFloat) {period : ℕ} (hperiod : 0 < period)
    {candles : List Candle} (h : period ≤ candles.length) :
    IsDirection ((multiDirections factor period candles).getLast?.getD 0) := by
  have hatr : ∃ seed rest, (multiAtr period candles).drop (period - 1) = seed :: rest := by
    rw [multiAtr, wilderAtr, length_trueRanges, if_neg (by omega)]
    dsimp only
    rw [List.drop_left' (List.length_replicate ..)]
    exact ⟨_, _, rfl⟩
  have hcandles : ∃ c rest, candles.drop (period - 1) = c :: rest := by
    cases hdrop : candles.drop (period - 1) with
    | nil =>
      rw [List.drop_eq_nil_iff] at hdrop
      omega
    | cons c rest => exact ⟨c, rest, rfl⟩
  obtain ⟨seed, atrs, hatr⟩ := hatr
  obtain ⟨c, rest, hcandles⟩ := hcandles
  rw [multiDirections, hcandles, hatr]
  dsimp only
  rw [List.getLast?_append_of_ne_nil _ (List.cons_ne_nil _ _),
    List.getLast?_eq_some_getLast (List.cons_ne_nil _ _), Option.getD_some]
  rcases List.mem_cons.mp (List.getLast_mem (List.cons_ne_nil _ _)) with hlast | hlast
  · rw [hlast]
    exact isDirection_first factor c seed
  · exact isDirection_multiLoop _ _ _ _ _ hlast

/-- Before it there is no ATR. -/
lemma multiAtr_of_few {period : ℕ} {candles : List Candle} (h : candles.length < period) :
    (multiAtr period candles).getLast?.getD .nan = .nan := by
  rw [multiAtr, wilderAtr, length_trueRanges, if_pos h]
  cases hn : candles.length with
  | zero => rfl
  | succ n =>
    rw [List.getLast?_replicate, if_neg (Nat.succ_ne_zero n)]
    rfl

lemma multiDirections_of_few (factor : PyFloat) {period : ℕ} {candles : List Candle}
    (h : candles.length < period) : (multiDirections factor period candles).getLast?.getD 0 = 0 := by
  have hdrop : candles.drop (period - 1) = [] := List.drop_eq_nil_of_le (by omega)
  rw [multiDirections, hdrop]
  dsimp only
  rw [List.getLast?_replicate]
  split <;> rfl

namespace SmoothChan

variable {x : SmoothChan} {digest : Logical → String} {uuid5 : String → String}
  {env : ℕ → DispatchEnv} {s : SmoothState} {b : FlipBook String String ℤ} {ts : List (Trade String)}

/-- The book of a state. -/
def book (s : SmoothState) : FlipBook String String ℤ :=
  ⟨s.positions.rows.map fun p => (p.positionId, p.side), s.lastDir⟩

lemma trade?_openCall (p : SmoothPosition) : (x.openCall p).trade? = some (.opened p.positionId) := rfl

lemma trade?_closeCall (id reason : String) (price : PyFloat) (t : ℤ) :
    (x.closeCall id reason price t).trade? = some (.closed id) := rfl

lemma book_of_rows {p : SmoothPosition} (h : s.positions.rows = [p]) :
    book s = ⟨[(p.positionId, p.side)], s.lastDir⟩ := by
  rw [book, h, List.map_singleton]

lemma book_of_cash (h : s.positions.rows = []) : book s = ⟨[], s.lastDir⟩ := by
  rw [book, h, List.map_nil]

lemma length_rows (h : (book s).held.length ≤ 1) : s.positions.rows.length ≤ 1 := by
  rwa [book, List.length_map] at h

lemma book_update (s : SmoothState) (id : String) (f : SmoothPosition → SmoothPosition)
    (hf : ∀ p, (f p).positionId = p.positionId) (hside : ∀ p, (f p).side = p.side) :
    book (update id f hf s) = book s := by
  unfold book update
  rw [map_rows_modify (g := fun p : SmoothPosition => (p.positionId, p.side)) id hf]
  intro p
  rw [hf, hside]

lemma side_withWatermark (c : Candle) (p : SmoothPosition) : (withWatermark c p).side = p.side := by
  unfold withWatermark
  split
  · rfl
  · split <;> rfl

/-! ## The exits -/

variable (x) in
lemma positionId_withBreakeven (c : Candle) (p : SmoothPosition) :
    (x.withBreakeven c p).positionId = p.positionId := rfl

variable (x) in
/-- What the exits of a scan send on its last closed candle, and the state they leave. -/
def managed (c : Candle) (price : PyFloat) (s : SmoothState) : List Call × SmoothState :=
  match existingPosition s with
  | none => ([], s)
  | some p =>
    match x.exitReason p c with
    | some reason =>
      ([x.closeCall p.positionId reason price c.time],
        { s with positions := s.positions.erase p.positionId })
    | none =>
      ([], update p.positionId (withWatermark c) (positionId_withWatermark c)
        (update p.positionId (x.withBreakeven c) (x.positionId_withBreakeven c) s))

section Methods

variable (henv : Acknowledges env)
include henv

lemma ends_closePosition (id reason : String) (price : PyFloat) (t : ℤ) :
    Ends (x.closePosition digest env id reason price t) s () [x.closeCall id reason price t]
      { s with positions := s.positions.erase id } :=
  (Ends.emit henv fun _ => rfl).bind Ends.modify

/-- A CLOSE within `_manage_exits`, from a state with the positions of `s`. -/
lemma ends_exit {s₁ : SmoothState} {id : String} (reason : String) (price : PyFloat) (t : ℤ)
    (h : { s₁ with positions := s₁.positions.erase id } = { s with positions := s.positions.erase id }) :
    Ends (do
      x.closePosition digest env id reason price t
      pure true : Method SmoothState Bool) s₁ true [x.closeCall id reason price t]
      { s with positions := s.positions.erase id } := by
  rw [← h]
  exact (ends_closePosition henv id reason price t).bind Ends.pure

/-- `_manage_exits` takes the exit that there is. -/
lemma ends_manageExits_some {p : SmoothPosition} {c : Candle} {reason : String}
    (h : x.exitReason p c = some reason) (price : PyFloat) :
    Ends (x.manageExits digest env p c price) s true [x.closeCall p.positionId reason price c.time]
      { s with positions := s.positions.erase p.positionId } := by
  unfold exitReason at h
  unfold manageExits
  by_cases hstop : x.stopHit p c = true
  · rw [if_pos hstop] at h ⊢
    cases h
    exact ends_exit henv "SL" price c.time rfl
  · rw [if_neg hstop] at h ⊢
    by_cases hchandelier : x.chandelierHit p c = true
    · rw [if_pos hchandelier] at h ⊢
      cases h
      exact ends_exit henv "CH" price c.time rfl
    · rw [if_neg hchandelier] at h ⊢
      by_cases hbreakeven : x.breakevenHit p c = true
      · rw [if_pos hbreakeven] at h ⊢
        cases h
        refine Ends.modify_bind (ends_exit henv "BE" price c.time ?_)
        have hpositions : (s.positions.modify p.positionId (x.withBreakeven c) fun _ => rfl).erase
            p.positionId = s.positions.erase p.positionId := erase_modify _ _ _
        exact congrArg (fun t => { s with positions := t }) hpositions
      · rw [if_neg hbreakeven] at h
        cases h

omit henv in
/-- Without an exit `_manage_exits` stores what later exits read. -/
lemma ends_manageExits_none {p : SmoothPosition} {c : Candle} (h : x.exitReason p c = none)
    (price : PyFloat) : Ends (x.manageExits digest env p c price) s false []
      (update p.positionId (withWatermark c) (positionId_withWatermark c)
        (update p.positionId (x.withBreakeven c) (fun _ => rfl) s)) := by
  unfold exitReason at h
  unfold manageExits
  by_cases hstop : x.stopHit p c = true
  · rw [if_pos hstop] at h
    cases h
  · rw [if_neg hstop] at h ⊢
    by_cases hchandelier : x.chandelierHit p c = true
    · rw [if_pos hchandelier] at h
      cases h
    · rw [if_neg hchandelier] at h ⊢
      by_cases hbreakeven : x.breakevenHit p c = true
      · rw [if_pos hbreakeven] at h
        cases h
      · rw [if_neg hbreakeven]
        exact Ends.modify_bind (Ends.modify_bind Ends.pure)

lemma ends_manage (c : Candle) (price : PyFloat) :
    Ends (x.manage digest env c price) s () (x.managed c price s).1 (x.managed c price s).2 := by
  refine Ends.get_bind ?_
  unfold managed
  cases existingPosition s with
  | none => exact Ends.pure
  | some p =>
    dsimp only
    cases hexit : x.exitReason p c with
    | some reason => exact Ends.bind (ends_manageExits_some henv hexit price) Ends.pure
    | none => exact Ends.bind (ends_manageExits_none hexit price) Ends.pure

end Methods

/-- The exits of a scan close the position or leave the book alone. -/
lemma beforeFlip_managed (hfits : (book s).Fits SideFits) (c : Candle) (price : PyFloat) :
    BeforeFlip SideFits (book s) (trades (x.managed c price s).1) (book (x.managed c price s).2) := by
  have hstart := BeforeFlip.start hfits
  unfold managed
  cases hpos : existingPosition s with
  | none => exact hstart
  | some p =>
    have hrows : s.positions.rows = [p] := rows_eq_singleton hpos (length_rows hfits.one)
    dsimp only
    cases x.exitReason p c with
    | some reason =>
      have hcash : book { s with positions := s.positions.erase p.positionId } = ⟨[], s.lastDir⟩ :=
        book_of_cash (rows_erase_singleton hrows)
      dsimp only
      rw [hcash]
      rw [book_of_rows hrows] at hstart ⊢
      exact hstart.close
    | none =>
      dsimp only
      rw [book_update _ _ (withWatermark c) (positionId_withWatermark c) (side_withWatermark c),
        book_update s _ (x.withBreakeven c) (fun _ => rfl) fun _ => rfl]
      exact hstart

/-! ## The flip -/

section Flip

variable (henv : Acknowledges env)
include henv

/-- `_open_if_allowed` in cash, after a turn of the direction. -/
lemma goes_openIfAllowed {d : ℤ} {side : String} {atr : PyFloat} (hrows : s.positions.rows = [])
    (hb : BeforeFlip SideFits b ts ⟨[], d⟩) (hne : s.lastDir ≠ d)
    (hside : atr.isFinite = true → SideFits side s.lastDir) (entry : PyFloat) (t : ℤ) :
    Acts (x.openIfAllowed digest uuid5 env side entry t atr) s (Goes book b ts) := by
  have hcash : existingPosition s = none := List.head?_eq_none_iff.mpr hrows
  have hturned : CashUntilFlip SideFits b ts (book s) := by
    rw [book_of_cash hrows]
    exact hb.turn _
  refine Acts.get_bind ?_
  rw [hcash]
  simp only [Option.isSome_none, Bool.false_eq_true, if_false]
  split
  · exact goes_pure hturned
  · rename_i hatr
    have hfinite : atr.isFinite = true := by
      rw [not_or, Bool.not_eq_false] at hatr
      exact hatr.1
    refine Acts.ofExcept_bind (fun qty _ => ?_) fun e _ => goes_done hturned
    split
    · exact goes_pure hturned
    · refine goes_then (Ends.emit henv fun _ => rfl) (Acts.modify (goes_done ?_))
      have hopened := hb.reopen (uuid5 (x.positionName side t)) hne (hside hfinite)
      rwa [book, rows_insertOrIgnore_empty hrows]

variable (x digest uuid5) in
/-- `_scan_eff` from the comparison of the directions on: a position is held in a direction only, and
without one there is no ATR to open with. -/
lemma goes_flip {direction : ℤ} {atr : PyFloat} (newest : Candle)
    (hb : BeforeFlip SideFits b ts (book s)) (hheld : s.positions.rows ≠ [] → IsDirection direction)
    (hatr : atr.isFinite = true → IsDirection direction) :
    Acts (x.flip digest uuid5 env newest direction atr) s (Goes book b ts) := by
  refine Acts.get_bind ?_
  by_cases hturn : direction = s.lastDir
  · rw [if_pos hturn]
    exact goes_pure hb.cycle
  · rw [if_neg hturn]
    refine Acts.modify_bind ?_
    let turned : SmoothState := { s with lastDir := direction }
    have hside (h : atr.isFinite = true) : SideFits (sideOf direction) direction :=
      sideFits_sideOf (hatr h)
    cases hpos : existingPosition s with
    | none =>
      have hrows : s.positions.rows = [] := List.head?_eq_none_iff.mp hpos
      have hnothing : Ends (x.closeOpposite digest env direction newest) turned () [] turned := by
        refine Ends.get_bind ?_
        have hcash : existingPosition turned = none := hpos
        rw [hcash]
        exact Ends.pure
      rw [book_of_cash hrows] at hb
      refine goes_then hnothing ?_
      rw [trades_nil, List.append_nil]
      exact goes_openIfAllowed (s := turned) henv hrows hb hturn hside _ _
    | some p =>
      have hrows : s.positions.rows = [p] := rows_eq_singleton hpos (length_rows hb.cycle.after.one)
      have hdir : IsDirection direction := by
        refine hheld ?_
        rw [hrows]
        exact List.cons_ne_nil _ _
      have hfits : SideFits p.side s.lastDir := by
        refine hb.cycle.after.side (p.positionId, p.side) ?_
        rw [book_of_rows hrows]
        exact List.mem_singleton_self _
      let cash : SmoothState := { turned with positions := s.positions.erase p.positionId }
      have hclose : Ends (x.closeOpposite digest env direction newest) turned ()
          [x.closeCall p.positionId "TREND_FLIP" newest.opening newest.time] cash := by
        refine Ends.get_bind ?_
        have hholds : existingPosition turned = some p := hpos
        rw [hholds]
        dsimp only
        rw [if_pos (opposite_of_sideFits hfits hdir hturn)]
        exact ends_closePosition henv _ _ _ _
      rw [book_of_rows hrows] at hb
      refine goes_then hclose ?_
      exact goes_openIfAllowed (s := cash) henv (rows_erase_singleton hrows) hb.close hturn hside _ _

end Flip

/-! ## What entries and exits leave alone -/

/-- The direction and the candle that the strategy remembers. -/
def memory (s : SmoothState) : ℤ × Option ℤ := (s.lastDir, s.lastEffOpen)

lemma keeps_closePosition (id reason : String) (price : PyFloat) (t : ℤ) :
    KeepsPart memory (x.closePosition digest env id reason price t) :=
  (KeepsPart.emit _).bind fun _ => KeepsPart.modifyState fun _ => rfl

lemma keeps_openIfAllowed (side : String) (entry : PyFloat) (t : ℤ) (atr : PyFloat) :
    KeepsPart memory (x.openIfAllowed digest uuid5 env side entry t atr) := by
  refine KeepsPart.getState.bind fun s => ?_
  split
  · exact KeepsPart.pure ()
  · split
    · exact KeepsPart.pure ()
    · refine (KeepsPart.ofExcept _).bind fun qty => ?_
      split
      · exact KeepsPart.pure ()
      · exact (KeepsPart.emit _).bind fun _ => KeepsPart.modifyState fun _ => rfl

lemma keeps_closeOpposite (direction : ℤ) (newest : Candle) :
    KeepsPart memory (x.closeOpposite digest env direction newest) := by
  refine KeepsPart.getState.bind fun s => ?_
  split
  · exact KeepsPart.pure ()
  · split
    · exact keeps_closePosition _ _ _ _
    · exact KeepsPart.pure ()

variable (x digest uuid5 env) in
/-- After the comparison the strategy remembers the direction. -/
lemma memory_flip (newest : Candle) (direction : ℤ) (atr : PyFloat) (w : SmoothState × Outbox) :
    memory ((x.flip digest uuid5 env newest direction atr).run w).2.1 = (direction, w.1.lastEffOpen) := by
  unfold flip
  rw [Coro.run_bind_ok (run_getState w)]
  by_cases hturn : direction = w.1.lastDir
  · rw [if_pos hturn, hturn]
    rfl
  · rw [if_neg hturn, Coro.run_bind_ok (run_modifyState _ w)]
    have hkeeps : ∀ p : Method SmoothState Unit, KeepsPart memory p →
        memory (p.run ({ w.1 with lastDir := direction }, w.2)).2.1 =
          (direction, w.1.lastEffOpen) := fun p hp => hp _
    exact hkeeps _ ((keeps_closeOpposite _ _).bind fun _ => keeps_openIfAllowed _ _ _ _)

lemma memory_managed (c : Candle) (price : PyFloat) (s : SmoothState) :
    memory (x.managed c price s).2 = memory s := by
  unfold managed
  split
  · rfl
  · split <;> rfl

/-! ## Scans and runs -/

variable (x) in
/-- The newest and the last closed candle of a scan that is not the first one of its process. -/
def worked (candles : List Candle) (s : SmoothState) : Option (Candle × Candle) :=
  let series := x.effSeries candles
  match s.lastEffOpen, series.getLast?, series.dropLast.getLast? with
  | some _, some newest, some last =>
    if (series.length : ℤ) < x.minBars + 1 ∨ some newest.time ≠ s.pendingEffOpen then none
    else some (newest, last)
  | _, _, _ => none

variable (x) in
/-- A position that the exits of a scan leave is not one without a direction. -/
def Directed (s : SmoothState) : Event → Prop
  | .scan candles => ∀ c ∈ x.worked candles s, ∀ p ∈ existingPosition s,
      x.exitReason p c.2 = none → x.direction (x.effSeries candles).dropLast ≠ 0
  | _ => True

instance (s : SmoothState) (e : Event) : Decidable (x.Directed s e) :=
  match e with
  | .scan candles => inferInstanceAs (Decidable (∀ c ∈ x.worked candles s,
      ∀ p ∈ existingPosition s, _ → _))
  | .kline _ _ => .isTrue trivial
  | .restart _ _ => .isTrue trivial

/-- The book fits the direction, and nothing is held before the first candle of the process. -/
structure Following (s : SmoothState) : Prop where
  fits : (book s).Fits SideFits
  unstarted : s.lastEffOpen = none → s.positions.rows = []

lemma direction_cases (x : SmoothChan) (closed : List Candle) :
    IsDirection (x.direction closed) ∨ (x.direction closed = 0 ∧ (x.atr closed).isFinite = false) := by
  by_cases hfew : closed.length < x.atrPeriod
  · refine .inr ⟨multiDirections_of_few x.factor hfew, ?_⟩
    rw [atr, multiAtr_of_few hfew]
    rfl
  · exact .inl (isDirection_multiDirections x.factor x.atrPeriod_pos (by omega))

lemma isDirection_of_ne_zero {closed : List Candle} (h : x.direction closed ≠ 0) :
    IsDirection (x.direction closed) := (direction_cases x closed).resolve_right fun hzero => h hzero.1

lemma isDirection_of_atr {closed : List Candle} (h : (x.atr closed).isFinite = true) :
    IsDirection (x.direction closed) := by
  refine (direction_cases x closed).resolve_right fun hzero => ?_
  rw [hzero.2] at h
  cases h

lemma following_adopt (h : s.positions.rows = []) (newest : Candle) (direction : ℤ) :
    CashUntilFlip SideFits (book s) [] (book (adopt newest direction s)) ∧
      Following (adopt newest direction s) := by
  have hturn : CashUntilFlip SideFits (⟨[], s.lastDir⟩ : FlipBook String String ℤ) []
      ⟨[], (adopt newest direction s).lastDir⟩ := .turn _ _
  have hbook : book (adopt newest direction s) = ⟨[], (adopt newest direction s).lastDir⟩ :=
    book_of_cash h
  rw [book_of_cash h, hbook]
  refine ⟨hturn, ?_, fun hl => by cases hl⟩
  rw [hbook]
  exact hturn.after

/-- The position that the exits of a scan leave. -/
lemma exitReason_of_managed {c : Candle} {price : PyFloat}
    (hone : s.positions.rows.length ≤ 1) (h : (x.managed c price s).2.positions.rows ≠ []) :
    ∃ p, existingPosition s = some p ∧ x.exitReason p c = none := by
  unfold managed at h
  cases hpos : existingPosition s with
  | none =>
    rw [hpos] at h
    exact absurd (List.head?_eq_none_iff.mp hpos) h
  | some p =>
    refine ⟨p, rfl, ?_⟩
    rw [hpos] at h
    dsimp only at h
    cases hexit : x.exitReason p c with
    | none => rfl
    | some reason =>
      rw [hexit] at h
      exact absurd (rows_erase_singleton (rows_eq_singleton hpos hone)) h

variable (x digest uuid5) in
/-- `_scan_eff` on a candle that is not the first one. -/
lemma goes_work (henv : Acknowledges env) (hfits : (book s).Fits SideFits) (newest last : Candle)
    {closed : List Candle}
    (hdirected : ∀ p ∈ existingPosition s, x.exitReason p last = none → x.direction closed ≠ 0) :
    Acts (do
      x.manage digest env last newest.opening
      x.flip digest uuid5 env newest (x.direction closed) (x.atr closed)) s fun r cs s' =>
        Goes book (book s) [] r cs s' ∧ s'.lastEffOpen = s.lastEffOpen := by
  have hmanaged := beforeFlip_managed (x := x) hfits last newest.opening
  have hheld : (x.managed last newest.opening s).2.positions.rows ≠ [] →
      IsDirection (x.direction closed) := by
    intro hrows
    obtain ⟨p, hp, hexit⟩ := exitReason_of_managed (length_rows hfits.one) hrows
    exact isDirection_of_ne_zero (hdirected p hp hexit)
  refine (ends_manage henv last newest.opening).then_acts ?_
  intro o
  obtain ⟨cs, hcalls, hgoes⟩ := goes_flip x digest uuid5 henv newest
    hmanaged hheld isDirection_of_atr o
  refine ⟨cs, hcalls, ?_, ?_⟩
  · unfold Goes at hgoes ⊢
    rw [trades_append, List.nil_append]
    exact hgoes
  · have hclock := congrArg Prod.snd (memory_flip x digest uuid5 env newest (x.direction closed) (x.atr closed)
      ((x.managed last newest.opening s).2, o))
    exact hclock.trans (congrArg Prod.snd (memory_managed last newest.opening s))

lemma acts_scanEff (henv : Acknowledges env) (h : Following s) {candles : List Candle} {t : ℤ}
    (ht : s.pendingEffOpen = some t) (hdirected : x.Directed s (.scan candles)) :
    Acts (x.scanEff digest uuid5 env candles t) s fun _ cs s' =>
      CashUntilFlip SideFits (book s) (trades cs) (book s') ∧ Following s' := by
  have hstay := CashUntilFlip.stay h.fits
  unfold scanEff
  dsimp only
  split
  · rename_i newest last hnewest hlastClosed
    split
    · exact Acts.pure ⟨hstay, h⟩
    · rename_i hnew
      refine Acts.get_bind ?_
      cases hlast : s.lastEffOpen with
      | none =>
        rw [if_pos rfl]
        exact Acts.modify (following_adopt (h.unstarted hlast) newest _)
      | some l =>
        rw [if_neg (Option.some_ne_none l)]
        have hworked : x.worked candles s = some (newest, last) := by
          unfold worked
          dsimp only
          rw [hlast, hnewest, hlastClosed, ht]
          dsimp only
          rw [if_neg]
          rw [Ne, Option.some_inj]
          exact hnew
        refine Acts.modify_bind ?_
        let seen : SmoothState := { s with lastEffOpen := some newest.time }
        have hfits : (book seen).Fits SideFits := h.fits
        refine (goes_work x digest uuid5 henv hfits newest last
          (hdirected _ hworked)).mono fun r cs s' hs' => ?_
        have hcycle : CashUntilFlip SideFits (book s) (trades cs) (book s') := hs'.1
        refine ⟨hcycle, hcycle.after, fun hl => ?_⟩
        rw [hs'.2] at hl
        cases hl
  · split
    · exact Acts.pure ⟨hstay, h⟩
    · exact Acts.ofExcept (r := .error .noCandle) ⟨hstay, h⟩
  · exact Acts.pure ⟨hstay, h⟩

variable (x digest uuid5) in
/-- One scan of a strategy that follows the direction. -/
lemma acts_scan (henv : Acknowledges env) (h : Following s) {candles : List Candle}
    (hdirected : x.Directed s (.scan candles)) :
    Acts (x.scan digest uuid5 env candles) s fun _ cs s' =>
      CashUntilFlip SideFits (book s) (trades cs) (book s') ∧ Following s' := by
  refine Acts.get_bind ?_
  cases ht : s.pendingEffOpen with
  | none => exact Acts.pure ⟨.stay h.fits, h⟩
  | some t =>
    refine Acts.bind ((acts_scanEff henv h ht hdirected).mono
      fun r cs s' hs' => ⟨fun _ _ => ?_, fun _ _ => hs'⟩)
    refine Acts.modify ?_
    rw [List.append_nil]
    exact ⟨hs'.1, hs'.2.fits, hs'.2.unstarted⟩

/-- What a run needs for the book to be one that follows the direction. -/
structure FollowingAt (w : SmoothState × Outbox) : Prop where
  following : Following w.1
  balanced : (book w.1).Balanced (trades (calls w.2.history))

/-- The event is no new process. -/
def Event.Alive : Event → Prop
  | .restart _ _ => False
  | _ => True

instance (e : Event) : Decidable e.Alive :=
  match e with
  | .restart _ _ => .isFalse id
  | .kline _ _ => .isTrue trivial
  | .scan _ => .isTrue trivial

/-- One event of a process. -/
lemma followsFlips_step (henv : Acknowledges env) {w : SmoothState × Outbox} {e : Event}
    (h : FollowingAt w) (he : e.Alive) (hdirected : x.Directed w.1 e) :
    FollowsFlips book w (x.step digest uuid5 env w e) ∧ FollowingAt (x.step digest uuid5 env w e) := by
  cases e with
  | restart loaded ok => exact absurd he id
  | kline ready latest =>
    obtain ⟨hbook, hpositions, hlast⟩ : book (x.shouldScanAfterEvent ready latest w.1) = book w.1 ∧
        (x.shouldScanAfterEvent ready latest w.1).positions = w.1.positions ∧
        (x.shouldScanAfterEvent ready latest w.1).lastEffOpen = w.1.lastEffOpen := by
      unfold shouldScanAfterEvent
      split
      · split
        · exact ⟨rfl, rfl, rfl⟩
        · split
          · exact ⟨rfl, rfl, rfl⟩
          · exact ⟨rfl, rfl, rfl⟩
      · exact ⟨rfl, rfl, rfl⟩
    have hfollows : FollowsFlips book w (x.step digest uuid5 env w (.kline ready latest)) :=
      followsFlips_silent h.following.fits h.balanced hbook rfl
    refine ⟨hfollows, ⟨hfollows.cycle.after, fun hl => ?_⟩, hfollows.balanced⟩
    change (x.shouldScanAfterEvent ready latest w.1).positions.rows = []
    rw [hpositions]
    exact h.following.unstarted (hlast ▸ hl)
  | scan candles =>
    have hrun := followsFlips_run (acts_scan x digest uuid5 henv
      h.following hdirected) h.balanced
    exact ⟨hrun.1, hrun.2, hrun.1.balanced⟩

/-- In every process that starts without a position and never holds one without a direction the book
follows the direction. -/
lemma along_followsFlips (henv : Acknowledges env) (d : Dispatcher) {events : List Event}
    (hok : Along (x.step digest uuid5 env) (fun w e => e.Alive ∧ x.Directed w.1 e)
      ({}, { dispatcher := d }) events) :
    Along (x.step digest uuid5 env) (fun w e => FollowsFlips book w (x.step digest uuid5 env w e))
      ({}, { dispatcher := d }) events := by
  refine Along.of_inv (I := FollowingAt)
    (fun w e h he => (followsFlips_step henv h he.1 he.2).2)
    (fun w e h he => (followsFlips_step henv h he.1 he.2).1) ?_ hok
  exact ⟨⟨⟨Nat.zero_le 1, fun _ hp => absurd hp List.not_mem_nil⟩, fun _ => rfl⟩, fun _ => rfl⟩

end SmoothChan

end PaperTrade.Runner
