import PaperTrade.Runner.FlipTrades

/-!
# The book of `SupertrendAdxEma13TpRunnerStrategy` follows the direction

The strategy looks at its exit only when the direction has not turned, so a scan has one branch that
closes and opens and one that closes.
-/

namespace PaperTrade.Runner

open PaperTrade.Runtime Dispatcher

namespace SupertrendAdx

variable {x : SupertrendAdx} {digest : Logical → String} {uuid5 : String → String}
  {env : ℕ → DispatchEnv} {s : AdxState} {b : FlipBook String String ℤ} {ts : List (Trade String)}

/-- The book of a state. -/
def book (s : AdxState) : FlipBook String String ℤ :=
  ⟨s.positions.rows.map fun p => (p.positionId, p.side), s.lastTrendDir⟩

lemma trade?_openCall (p : AdxPosition) : (x.openCall p).trade? = some (.opened p.positionId) := rfl

lemma trade?_closeCall (id reason : String) (price : PyFloat) (t : ℤ) :
    (x.closeCall id reason price t).trade? = some (.closed id) := rfl

lemma book_of_rows {p : AdxPosition} (h : s.positions.rows = [p]) :
    book s = ⟨[(p.positionId, p.side)], s.lastTrendDir⟩ := by
  rw [book, h, List.map_singleton]

lemma book_of_cash (h : s.positions.rows = []) : book s = ⟨[], s.lastTrendDir⟩ := by
  rw [book, h, List.map_nil]

lemma length_rows (h : (book s).held.length ≤ 1) : s.positions.rows.length ≤ 1 := by
  rwa [book, List.length_map] at h

lemma book_update (id : String) (f : AdxPosition → AdxPosition)
    (hf : ∀ p, (f p).positionId = p.positionId) (hside : ∀ p, (f p).side = p.side) :
    book (update id f hf s) = book s := by
  unfold book update
  rw [map_rows_modify (g := fun p : AdxPosition => (p.positionId, p.side)) id hf]
  intro p
  rw [hf, hside]

lemma side_managed (closed : List Candle) (directions : List ℤ) (p : AdxPosition) :
    (x.managed closed directions p).side = p.side := by
  unfold managed
  dsimp only
  split
  · rfl
  · split <;> rfl

/-! ## The methods -/

section Methods

variable (henv : Acknowledges env)
include henv

lemma ends_closePosition (id reason : String) (price : PyFloat) (t : ℤ) :
    Ends (x.closePosition digest env id reason price t) s () [x.closeCall id reason price t]
      { s with positions := s.positions.erase id } :=
  (Ends.emit henv fun _ => rfl).bind Ends.modify

/-- `_open_if_allowed` in cash, after a turn of the direction. -/
lemma goes_openIfAllowed {d : ℤ} (hrows : s.positions.rows = [])
    (hb : BeforeFlip SideFits b ts ⟨[], d⟩) (hne : s.lastTrendDir ≠ d) {side : String}
    (hside : SideFits side s.lastTrendDir) (entry : PyFloat) (t : ℤ) :
    Acts (x.openIfAllowed digest uuid5 env side entry t) s (Goes book b ts) := by
  have hcash : existingPosition s = none := List.head?_eq_none_iff.mpr hrows
  have hturned : CashUntilFlip SideFits b ts (book s) := by
    rw [book_of_cash hrows]
    exact hb.turn _
  refine Acts.get_bind ?_
  rw [hcash]
  simp only [Option.isSome_none, Bool.false_eq_true, if_false]
  refine Acts.ofExcept_bind (fun qty _ => ?_) fun e _ => goes_done hturned
  split
  · exact goes_pure hturned
  · refine goes_then (Ends.emit henv fun _ => rfl) (Acts.modify (goes_done ?_))
    have hopened := hb.reopen (uuid5 (x.positionName side t)) hne hside
    rwa [book, rows_insertOrIgnore_empty hrows]

/-- A turn of the direction: the position of the other side is closed and one of the new side opened. -/
lemma goes_turn {direction : ℤ} (newest : Candle) (hb : BeforeFlip SideFits b ts (book s))
    (hdir : IsDirection direction) (hturn : direction ≠ s.lastTrendDir) :
    Acts (do
      x.closeOpposite digest env direction newest (existingPosition s)
      x.openIfAllowed digest uuid5 env (sideOf direction) newest.opening newest.time)
      { s with lastTrendDir := direction } (Goes book b ts) := by
  let turned : AdxState := { s with lastTrendDir := direction }
  have hone := length_rows hb.cycle.after.one
  cases hpos : existingPosition s with
  | none =>
    have hrows : s.positions.rows = [] := List.head?_eq_none_iff.mp hpos
    rw [book_of_cash hrows] at hb
    have hnothing : Ends (x.closeOpposite digest env direction newest none) turned () [] turned :=
      Ends.pure
    refine goes_then hnothing ?_
    rw [trades_nil, List.append_nil]
    exact goes_openIfAllowed (s := turned) henv hrows hb hturn (sideFits_sideOf hdir) _ _
  | some p =>
    have hrows : s.positions.rows = [p] := rows_eq_singleton hpos hone
    have hfits : SideFits p.side s.lastTrendDir := by
      refine hb.cycle.after.side (p.positionId, p.side) ?_
      rw [book_of_rows hrows]
      exact List.mem_singleton_self _
    let cash : AdxState := { turned with positions := s.positions.erase p.positionId }
    have hclose : Ends (x.closeOpposite digest env direction newest (some p)) turned ()
        [x.closeCall p.positionId "TREND_FLIP" newest.opening newest.time] cash := by
      rw [closeOpposite, if_pos (opposite_of_sideFits hfits hdir hturn)]
      exact ends_closePosition henv _ _ _ _
    rw [book_of_rows hrows] at hb
    refine goes_then hclose ?_
    exact goes_openIfAllowed (s := cash) henv (rows_erase_singleton hrows) hb.close hturn
      (sideFits_sideOf hdir) _ _

variable (x digest uuid5) in
/-- `_scan_15m` on a candle that is not the first one. -/
lemma goes_scanCandle (newest : Candle) {closed : List Candle} (hclosed : closed ≠ [])
    (hfits : (book s).Fits SideFits) :
    Acts (x.scanCandle digest uuid5 env newest closed) s (Goes book (book s) []) := by
  have hdir := isDirection_last x.factor x.atrPeriod hclosed
  have hstart := BeforeFlip.start hfits
  refine Acts.get_bind (Acts.modify_bind ?_)
  split
  · rename_i hturn
    exact Acts.modify_bind
      (goes_turn (s := { s with last15mOpen := some newest.time }) henv newest hstart hdir hturn)
  · cases hpos : existingPosition s with
    | none => exact goes_pure hstart.cycle
    | some p =>
      have hrows : s.positions.rows = [p] := rows_eq_singleton hpos (length_rows hfits.one)
      refine Acts.modify_bind ?_
      let s₁ : AdxState := { s with last15mOpen := some newest.time }
      let directions := supertrendDirections x.factor x.atrPeriod closed
      let held := update p.positionId (x.managed closed directions)
        (x.positionId_managed closed directions) s₁
      have hheld : book held = book s :=
        book_update (s := s₁) _ _ _ fun q => side_managed closed directions q
      split
      · have hrows' : held.positions.rows = [x.managed closed directions p] :=
          rows_modify_singleton (x.positionId_managed closed directions) hrows
        have hid : (x.managed closed directions p).positionId = p.positionId :=
          x.positionId_managed closed directions p
        have hends : Ends (x.closePosition digest env p.positionId "ADX_4_2_EMA13_TP" newest.opening
            newest.time) held () [x.closeCall p.positionId "ADX_4_2_EMA13_TP" newest.opening newest.time]
            { held with positions := held.positions.erase p.positionId } :=
          ends_closePosition henv _ _ _ _
        refine hends.mono fun r cs s' hs' => ?_
        obtain ⟨-, rfl, rfl⟩ := hs'
        have hcash : (held.positions.erase p.positionId).rows = [] := by
          rw [← hid]
          exact rows_erase_singleton hrows'
        have hbook : book { held with positions := held.positions.erase p.positionId } =
            ⟨[], s.lastTrendDir⟩ := book_of_cash hcash
        unfold Goes
        rw [hbook]
        rw [book_of_rows hrows] at hstart ⊢
        exact hstart.close.cycle
      · refine goes_pure ?_
        change CashUntilFlip SideFits (book s) [] (book held)
        rw [hheld]
        exact hstart.cycle

end Methods

/-! ## Scans and runs -/

/-- The book fits the direction, and nothing is held before the first candle of the process. -/
structure Following (s : AdxState) : Prop where
  fits : (book s).Fits SideFits
  unstarted : s.last15mOpen = none → s.positions.rows = []

/-- The direction and the candle that the strategy remembers. -/
def memory (s : AdxState) : ℤ × Option ℤ := (s.lastTrendDir, s.last15mOpen)

lemma memory_closePosition (id reason : String) (price : PyFloat) (t : ℤ) :
    KeepsPart memory (x.closePosition digest env id reason price t) :=
  (KeepsPart.emit _).bind fun _ => KeepsPart.modifyState fun _ => rfl

lemma memory_openIfAllowed (side : String) (entry : PyFloat) (t : ℤ) :
    KeepsPart memory (x.openIfAllowed digest uuid5 env side entry t) := by
  refine KeepsPart.getState.bind fun s => ?_
  split
  · exact KeepsPart.pure ()
  · refine (KeepsPart.ofExcept _).bind fun qty => ?_
    split
    · exact KeepsPart.pure ()
    · exact (KeepsPart.emit _).bind fun _ => KeepsPart.modifyState fun _ => rfl

lemma memory_closeOpposite (direction : ℤ) (newest : Candle) (position : Option AdxPosition) :
    KeepsPart memory (x.closeOpposite digest env direction newest position) := by
  unfold closeOpposite
  split
  · exact KeepsPart.pure ()
  · split
    · exact memory_closePosition _ _ _ _
    · exact KeepsPart.pure ()

variable (x digest uuid5 env) in
/-- After a scan of a candle the strategy remembers it and the direction. -/
lemma memory_scanCandle (newest : Candle) (closed : List Candle) (w : AdxState × Outbox) :
    memory ((x.scanCandle digest uuid5 env newest closed).run w).2.1 =
      ((supertrendDirections x.factor x.atrPeriod closed).getLast?.getD 0, some newest.time) := by
  unfold scanCandle
  rw [Coro.run_bind_ok (run_getState w), Coro.run_bind_ok (run_modifyState _ w)]
  have hkeeps : ∀ (p : Method AdxState Unit) (s : AdxState), KeepsPart memory p →
      memory (p.run (s, w.2)).2.1 = memory s := fun p s hp => hp _
  split
  · rw [Coro.run_bind_ok (run_modifyState _ _)]
    exact hkeeps _ _ ((memory_closeOpposite _ _ _).bind fun _ => memory_openIfAllowed _ _ _)
  · rename_i hsame
    rw [not_not] at hsame
    refine (hkeeps _ _ ?_).trans ?_
    · split
      · exact KeepsPart.pure ()
      · refine KeepsPart.bind (KeepsPart.modifyState fun _ => rfl) fun _ => ?_
        split
        · exact memory_closePosition _ _ _ _
        · exact KeepsPart.pure ()
    · rw [hsame]
      rfl

lemma following_adopt (h : s.positions.rows = []) (newest : Candle) (closed : List Candle) :
    CashUntilFlip SideFits (book s) [] (book (x.adopt newest closed s)) ∧
      Following (x.adopt newest closed s) := by
  have hturn : CashUntilFlip SideFits (⟨[], s.lastTrendDir⟩ : FlipBook String String ℤ) []
      ⟨[], (x.adopt newest closed s).lastTrendDir⟩ := .turn _ _
  have hbook : book (x.adopt newest closed s) = ⟨[], (x.adopt newest closed s).lastTrendDir⟩ :=
    book_of_cash h
  rw [book_of_cash h, hbook]
  refine ⟨hturn, ?_, fun hl => by cases hl⟩
  rw [hbook]
  exact hturn.after

lemma acts_scan15m (henv : Acknowledges env) (h : Following s) (candles : List Candle) (t : ℤ) :
    Acts (x.scan15m digest uuid5 env candles t) s fun _ cs s' =>
      CashUntilFlip SideFits (book s) (trades cs) (book s') ∧ Following s' := by
  have hstay := CashUntilFlip.stay h.fits
  unfold scan15m
  dsimp only
  split
  · exact Acts.pure ⟨hstay, h⟩
  · rename_i newest hnewest
    split
    · exact Acts.pure ⟨hstay, h⟩
    · split
      · exact Acts.ofExcept (r := .error .noCandle) ⟨hstay, h⟩
      · rename_i hclosed
        refine Acts.get_bind ?_
        by_cases hlast : s.last15mOpen = none
        · rw [if_pos hlast]
          exact Acts.modify (following_adopt (h.unstarted hlast) newest _)
        · rw [if_neg hlast]
          intro o
          obtain ⟨cs, hcalls, hgoes⟩ := goes_scanCandle x digest uuid5 henv
            newest hclosed h.fits o
          refine ⟨cs, hcalls, hgoes, hgoes.after, fun hl => ?_⟩
          have hmemory := congrArg Prod.snd (memory_scanCandle x digest uuid5 env newest (x.series candles).dropLast (s, o))
          cases hmemory.symm.trans hl

variable (x digest uuid5) in
/-- One scan of a strategy that follows the direction. -/
lemma acts_scan (henv : Acknowledges env) (h : Following s) (candles : List Candle) :
    Acts (x.scan digest uuid5 env candles) s fun _ cs s' =>
      CashUntilFlip SideFits (book s) (trades cs) (book s') ∧ Following s' := by
  refine Acts.get_bind ?_
  split
  · exact Acts.pure ⟨.stay h.fits, h⟩
  · refine Acts.bind ((acts_scan15m henv h candles _).mono fun r cs s' hs' => ⟨fun _ _ => ?_, fun _ _ => hs'⟩)
    refine Acts.modify ?_
    rw [List.append_nil]
    exact ⟨hs'.1, hs'.2.fits, hs'.2.unstarted⟩

/-- What a run needs for the book to be one that follows the direction. -/
structure FollowingAt (w : AdxState × Outbox) : Prop where
  following : Following w.1
  balanced : (book w.1).Balanced (trades (calls w.2.history))

/-- One event of a process. -/
lemma followsFlips_step (henv : Acknowledges env) {w : AdxState × Outbox} (e : Event)
    (h : FollowingAt w) :
    FollowsFlips book w (x.step digest uuid5 env w e) ∧ FollowingAt (x.step digest uuid5 env w e) := by
  cases e with
  | kline ready latest =>
    obtain ⟨hbook, hpositions, hlast⟩ : book (x.shouldScanAfterEvent ready latest w.1) = book w.1 ∧
        (x.shouldScanAfterEvent ready latest w.1).positions = w.1.positions ∧
        (x.shouldScanAfterEvent ready latest w.1).last15mOpen = w.1.last15mOpen := by
      unfold shouldScanAfterEvent
      split
      · dsimp only
        split
        · exact ⟨rfl, rfl, rfl⟩
        · exact ⟨rfl, rfl, rfl⟩
      · exact ⟨rfl, rfl, rfl⟩
    have hfollows : FollowsFlips book w (x.step digest uuid5 env w (.kline ready latest)) :=
      followsFlips_silent h.following.fits h.balanced hbook rfl
    refine ⟨hfollows, ⟨hfollows.cycle.after, fun hl => ?_⟩, hfollows.balanced⟩
    change (x.shouldScanAfterEvent ready latest w.1).positions.rows = []
    rw [hpositions]
    exact h.following.unstarted (hlast ▸ hl)
  | scan candles =>
    have hrun := followsFlips_run (acts_scan x digest uuid5 henv
      h.following candles) h.balanced
    exact ⟨hrun.1, hrun.2, hrun.1.balanced⟩

/-- In every process that starts without a position the book follows the direction. -/
lemma along_followsFlips (henv : Acknowledges env) (d : Dispatcher) (events : List Event) :
    Along (x.step digest uuid5 env) (fun w e => FollowsFlips book w (x.step digest uuid5 env w e))
      ({}, { dispatcher := d }) events := by
  refine Along.of_inv (P := fun _ _ => True) (I := FollowingAt)
    (fun w e h _ => (followsFlips_step henv e h).2)
    (fun w e h _ => (followsFlips_step henv e h).1) ?_ (Along.of_forall (fun _ _ => trivial) _ _)
  exact ⟨⟨⟨Nat.zero_le 1, fun _ hp => absurd hp List.not_mem_nil⟩, fun _ => rfl⟩, fun _ => rfl⟩

end SupertrendAdx

end PaperTrade.Runner
