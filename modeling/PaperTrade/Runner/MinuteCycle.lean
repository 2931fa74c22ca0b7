import PaperTrade.Runner.FlipTrades

/-!
# The book of `SupertrendXauV2RunnerStrategy` follows the direction

One scan may work on a 15m candle and then on a 1m candle: the first may close and open, the second may
close what has just been opened.
-/

namespace PaperTrade.Runner

open PaperTrade.Runtime Dispatcher

namespace MinuteTrailing

variable {x : MinuteTrailing} {digest : Logical → String} {uuid5 : String → String}
  {env : ℕ → DispatchEnv} {s : MinuteState} {b : FlipBook String String ℤ} {ts : List (Trade String)}

/-- The book of a state. -/
def book (s : MinuteState) : FlipBook String String ℤ :=
  ⟨s.positions.rows.map fun p => (p.positionId, p.side), s.lastTrendDir⟩

lemma trade?_openCall (p : MinutePosition) : (x.openCall p).trade? = some (.opened p.positionId) := rfl

lemma trade?_closeCall (id reason : String) (price : PyFloat) (t : ℤ) :
    (x.closeCall id reason price t).trade? = some (.closed id) := rfl

lemma book_of_rows {p : MinutePosition} (h : s.positions.rows = [p]) :
    book s = ⟨[(p.positionId, p.side)], s.lastTrendDir⟩ := by
  rw [book, h, List.map_singleton]

lemma book_of_cash (h : s.positions.rows = []) : book s = ⟨[], s.lastTrendDir⟩ := by
  rw [book, h, List.map_nil]

lemma length_rows (h : (book s).held.length ≤ 1) : s.positions.rows.length ≤ 1 := by
  rwa [book, List.length_map] at h

lemma book_update (s : MinuteState) (id : String) (f : MinutePosition → MinutePosition)
    (hf : ∀ p, (f p).positionId = p.positionId) (hside : ∀ p, (f p).side = p.side) :
    book (update id f hf s) = book s := by
  unfold book update
  rw [map_rows_modify (g := fun p : MinutePosition => (p.positionId, p.side)) id hf]
  intro p
  rw [hf, hside]

/-! ## The methods -/

section Methods

variable (henv : Acknowledges env)
include henv

lemma ends_closePosition (id reason : String) (price : PyFloat) (t : ℤ) :
    Ends (x.closePosition digest env id reason price t) s () [x.closeCall id reason price t]
      { s with positions := s.positions.erase id } :=
  (Ends.emit henv fun _ => rfl).bind Ends.modify

/-- `_open_if_allowed` in cash, after a turn of the direction. -/
lemma goes_openIfAllowed {d : ℤ} (hrows : s.positions.rows = [])
    (hb : BeforeFlip SideFits b ts ⟨[], d⟩) (hne : s.lastTrendDir ≠ d) {side : String}
    (hside : SideFits side s.lastTrendDir) (entry : PyFloat) (t : ℤ) (minAtrProfit : Option PyFloat) :
    Acts (x.openIfAllowed digest uuid5 env side entry t minAtrProfit) s (Goes book b ts) := by
  have hcash : existingPosition s = none := List.head?_eq_none_iff.mpr hrows
  have hturned : CashUntilFlip SideFits b ts (book s) := by
    rw [book_of_cash hrows]
    exact hb.turn _
  refine Acts.get_bind ?_
  rw [hcash]
  simp only [Option.isSome_none, Bool.false_eq_true, if_false]
  refine Acts.ofExcept_bind (fun qty _ => ?_) fun e _ => goes_done hturned
  split
  · exact goes_pure hturned
  · refine goes_then (Ends.emit henv fun _ => rfl) (Acts.modify (goes_done ?_))
    have hopened := hb.reopen (uuid5 (x.positionName side t)) hne hside
    rwa [book, rows_insertOrIgnore_empty hrows]

variable (x digest uuid5) in
/-- `_scan_15m` from the comparison of the directions on. -/
lemma goes_flip {direction : ℤ} (newest : Candle) (series : List Candle) (hdir : IsDirection direction)
    (hfits : (book s).Fits SideFits) :
    Acts (x.flip digest uuid5 env newest series direction) s (Goes book (book s) []) := by
  have hstart := BeforeFlip.start hfits
  refine Acts.get_bind ?_
  by_cases hturn : direction = s.lastTrendDir
  · rw [if_pos hturn]
    exact goes_pure hstart.cycle
  · rw [if_neg hturn]
    refine Acts.modify_bind ?_
    let turned : MinuteState := { s with lastTrendDir := direction }
    cases hpos : existingPosition s with
    | none =>
      have hrows : s.positions.rows = [] := List.head?_eq_none_iff.mp hpos
      rw [book_of_cash hrows] at hstart ⊢
      exact goes_openIfAllowed (s := turned) henv hrows hstart hturn (sideFits_sideOf hdir) _ _ _
    | some p =>
      have hrows : s.positions.rows = [p] := rows_eq_singleton hpos (length_rows hfits.one)
      have hside : SideFits p.side s.lastTrendDir := by
        refine hfits.side (p.positionId, p.side) ?_
        rw [book_of_rows hrows]
        exact List.mem_singleton_self _
      have hopposite : Opposite p.side direction := opposite_of_sideFits hside hdir hturn
      let cash : MinuteState := { turned with positions := s.positions.erase p.positionId }
      have hclose : Ends (x.closePosition digest env p.positionId "TREND_FLIP" newest.close newest.time)
          turned () [x.closeCall p.positionId "TREND_FLIP" newest.close newest.time] cash :=
        ends_closePosition henv _ _ _ _
      dsimp only
      rw [if_pos hopposite]
      refine goes_then hclose ?_
      rw [book_of_rows hrows] at hstart ⊢
      exact goes_openIfAllowed (s := cash) henv (rows_erase_singleton hrows) hstart.close hturn
        (sideFits_sideOf hdir) _ _ _

variable (x digest) in
/-- `_scan_1m` after other trades of the scan; it opens nothing. -/
lemma goes_scan1m (hb : CashUntilFlip SideFits b ts (book s)) (candles : List Candle) (t : ℤ) :
    Acts (x.scan1m digest env candles t) s fun r cs s' =>
      Goes book b ts r cs s' ∧ (s.positions.rows = [] → s'.positions.rows = []) := by
  have hsame : Goes book b ts (.ok ()) [] s ∧ (s.positions.rows = [] → s.positions.rows = []) :=
    ⟨goes_done hb, id⟩
  unfold scan1m
  split
  · exact Acts.pure hsame
  · rename_i newest hnewest
    split
    · exact Acts.pure hsame
    · refine Acts.modify_bind (Acts.get_bind ?_)
      let seen : MinuteState := { s with last1mOpen := some newest.time }
      cases hpos : existingPosition s with
      | none =>
        have hcash : existingPosition seen = none := hpos
        rw [hcash]
        exact Acts.pure hsame
      | some p =>
        have hrows : s.positions.rows = [p] := rows_eq_singleton hpos (length_rows hb.after.one)
        have hholds : s.positions.rows ≠ [] := by
          rw [hrows]
          exact List.cons_ne_nil _ _
        have hheld : existingPosition seen = some p := hpos
        rw [hheld]
        dsimp only
        split
        · rename_i price hstep
          have hends : Ends (x.closePosition digest env p.positionId "TRAILING_TP" price newest.time)
              seen () [x.closeCall p.positionId "TRAILING_TP" price newest.time]
              { seen with positions := s.positions.erase p.positionId } :=
            ends_closePosition henv _ _ _ _
          refine hends.mono fun r cs s' hs' => ⟨?_, fun hnil => absurd hnil hholds⟩
          obtain ⟨-, rfl, rfl⟩ := hs'
          have hbook : book { seen with positions := s.positions.erase p.positionId } =
              ⟨[], s.lastTrendDir⟩ := book_of_cash (rows_erase_singleton hrows)
          unfold Goes
          rw [hbook]
          rw [book_of_rows hrows] at hb
          exact hb.close
        · rename_i best trailing hstep
          refine Acts.modify ⟨goes_done ?_, fun hnil => absurd hnil hholds⟩
          rw [book_update seen p.positionId (trailed best trailing) (fun _ => rfl) fun _ => rfl]
          exact hb

end Methods

/-! ## What entries and exits leave alone -/

/-- The direction and the 15m candle that the strategy remembers. -/
def memory (s : MinuteState) : ℤ × Option ℤ := (s.lastTrendDir, s.last15mOpen)

lemma keeps_closePosition (id reason : String) (price : PyFloat) (t : ℤ) :
    KeepsPart memory (x.closePosition digest env id reason price t) :=
  (KeepsPart.emit _).bind fun _ => KeepsPart.modifyState fun _ => rfl

lemma keeps_openIfAllowed (side : String) (entry : PyFloat) (t : ℤ) (minAtrProfit : Option PyFloat) :
    KeepsPart memory (x.openIfAllowed digest uuid5 env side entry t minAtrProfit) := by
  refine KeepsPart.getState.bind fun s => ?_
  split
  · exact KeepsPart.pure ()
  · refine (KeepsPart.ofExcept _).bind fun qty => ?_
    split
    · exact KeepsPart.pure ()
    · exact (KeepsPart.emit _).bind fun _ => KeepsPart.modifyState fun _ => rfl

variable (x digest uuid5 env) in
/-- After the comparison the strategy remembers the direction. -/
lemma memory_flip (newest : Candle) (series : List Candle) (direction : ℤ) (w : MinuteState × Outbox) :
    memory ((x.flip digest uuid5 env newest series direction).run w).2.1 =
      (direction, w.1.last15mOpen) := by
  unfold flip
  rw [Coro.run_bind_ok (run_getState w)]
  by_cases hturn : direction = w.1.lastTrendDir
  · rw [if_pos hturn, hturn]
    rfl
  · rw [if_neg hturn, Coro.run_bind_ok (run_modifyState _ w)]
    have hkeeps : ∀ p : Method MinuteState Unit, KeepsPart memory p →
        memory (p.run ({ w.1 with lastTrendDir := direction }, w.2)).2.1 =
          (direction, w.1.last15mOpen) := fun p hp => hp _
    refine hkeeps _ ?_
    dsimp only
    cases existingPosition w.1 with
    | none => exact keeps_openIfAllowed _ _ _ _
    | some p =>
      dsimp only
      split
      · exact (keeps_closePosition _ _ _ _).bind fun _ => keeps_openIfAllowed _ _ _ _
      · exact KeepsPart.pure ()

lemma keeps_scan1m (candles : List Candle) (t : ℤ) :
    KeepsPart memory (x.scan1m digest env candles t) := by
  unfold scan1m
  split
  · exact KeepsPart.pure ()
  · split
    · exact KeepsPart.pure ()
    · refine KeepsPart.bind (KeepsPart.modifyState fun _ => rfl) fun _ =>
        KeepsPart.getState.bind fun s => ?_
      split
      · exact KeepsPart.pure ()
      · split
        · exact keeps_closePosition _ _ _ _
        · exact KeepsPart.modifyState fun _ => rfl

/-! ## Scans and runs -/

/-- The book fits the direction, and nothing is held before the first candle of the process. -/
structure Following (s : MinuteState) : Prop where
  fits : (book s).Fits SideFits
  unstarted : s.last15mOpen = none → s.positions.rows = []

lemma following_adopt (h : s.positions.rows = []) (newest : Candle) (series : List Candle) :
    CashUntilFlip SideFits (book s) [] (book (x.adopt newest series s)) ∧
      Following (x.adopt newest series s) := by
  have hnone : existingPosition s = none := List.head?_eq_none_iff.mpr h
  let d := (supertrendDirections x.factor x.atrPeriod series).getLast?.getD 0
  have hadopt : x.adopt newest series s =
      { s with last15mOpen := some newest.time, lastTrendDir := d } := by
    rw [adopt, hnone]
  have hturn : CashUntilFlip SideFits (⟨[], s.lastTrendDir⟩ : FlipBook String String ℤ) []
      ⟨[], d⟩ := .turn _ _
  have hbook : book { s with last15mOpen := some newest.time, lastTrendDir := d } = ⟨[], d⟩ :=
    book_of_cash h
  rw [hadopt, book_of_cash h]
  refine ⟨?_, ?_, fun hl => by cases hl⟩
  · rw [hbook]
    exact hturn
  · rw [hbook]
    exact hturn.after

lemma acts_scan15m (henv : Acknowledges env) (h : Following s) (candles : List Candle) (t : ℤ) :
    Acts (x.scan15m digest uuid5 env candles t) s fun _ cs s' =>
      CashUntilFlip SideFits (book s) (trades cs) (book s') ∧ Following s' := by
  have hstay := CashUntilFlip.stay h.fits
  unfold scan15m
  dsimp only
  split
  · exact Acts.pure ⟨hstay, h⟩
  · rename_i newest hnewest
    have hseries : x.series SuploXau.m15Ms candles ≠ [] := by
      intro hnil
      rw [hnil] at hnewest
      cases hnewest
    split
    · exact Acts.pure ⟨hstay, h⟩
    · refine Acts.get_bind ?_
      by_cases hlast : s.last15mOpen = none
      · rw [if_pos hlast]
        exact Acts.modify (following_adopt (h.unstarted hlast) newest _)
      · rw [if_neg hlast]
        refine Acts.modify_bind ?_
        let seen : MinuteState := { s with last15mOpen := some newest.time }
        have hfits : (book seen).Fits SideFits := h.fits
        intro o
        obtain ⟨cs, hcalls, hcycle⟩ := goes_flip x digest uuid5 henv newest
          (x.series SuploXau.m15Ms candles) (isDirection_last x.factor x.atrPeriod hseries) hfits o
        refine ⟨cs, hcalls, hcycle, hcycle.after, fun hl => ?_⟩
        have hmemory := congrArg Prod.snd (memory_flip x digest uuid5 env newest (x.series SuploXau.m15Ms candles)
          ((supertrendDirections x.factor x.atrPeriod (x.series SuploXau.m15Ms candles)).getLast?.getD 0)
          (seen, o))
        cases hmemory.symm.trans hl

variable (x digest uuid5) in
/-- One scan of a strategy that follows the direction. -/
lemma acts_scan (henv : Acknowledges env) (h : Following s) (input : MinuteInput) :
    Acts (x.scan digest uuid5 env input) s fun _ cs s' =>
      CashUntilFlip SideFits (book s) (trades cs) (book s') ∧ Following s' := by
  have h15m : Acts (x.scanPending15m digest uuid5 env input) s fun _ cs s' =>
      CashUntilFlip SideFits (book s) (trades cs) (book s') ∧ Following s' := by
    refine Acts.get_bind ?_
    split
    · exact Acts.pure ⟨.stay h.fits, h⟩
    · refine Acts.bind ((acts_scan15m henv h _ _).mono fun r cs s' hs' => ⟨fun _ _ => ?_, fun _ _ => hs'⟩)
      refine Acts.modify ?_
      rw [List.append_nil]
      exact ⟨hs'.1, hs'.2.fits, hs'.2.unstarted⟩
  refine Acts.bind (h15m.mono fun r cs s' hs' => ⟨fun _ _ => ?_, fun _ _ => hs'⟩)
  -- the 1m candle, after the trades of the 15m candle
  refine Acts.get_bind ?_
  split
  · refine Acts.pure ?_
    rw [List.append_nil]
    exact hs'
  · rename_i t ht
    have hscan := (goes_scan1m x digest henv hs'.1 input.m1 t).keeps
      (keeps_scan1m input.m1 t)
    have hafter : ∀ {r' : Except StrategyError Unit} {cs' : List Call} {s'' : MinuteState},
        (Goes book (book s) (trades cs) r' cs' s'' ∧
          (s'.positions.rows = [] → s''.positions.rows = [])) ∧ memory s'' = memory s' →
        CashUntilFlip SideFits (book s) (trades (cs ++ cs')) (book s'') ∧ Following s'' := by
      rintro r' cs' s'' ⟨⟨hgoes, hnil⟩, hmemory⟩
      have hclock : s''.last15mOpen = s'.last15mOpen := congrArg Prod.snd hmemory
      have hcycle : CashUntilFlip SideFits (book s) (trades (cs ++ cs')) (book s'') := by
        rw [trades_append]
        exact hgoes
      exact ⟨hcycle, hcycle.after, fun hl => hnil (hs'.2.unstarted (hclock ▸ hl))⟩
    refine Acts.bind (hscan.mono fun r' cs' s'' hs'' => ⟨fun _ _ => ?_, fun _ _ => hafter hs''⟩)
    refine Acts.modify ?_
    rw [List.append_nil]
    have hdone := hafter hs''
    exact ⟨hdone.1, hdone.2.fits, hdone.2.unstarted⟩

/-- What a run needs for the book to be one that follows the direction. -/
structure FollowingAt (w : MinuteState × Outbox) : Prop where
  following : Following w.1
  balanced : (book w.1).Balanced (trades (calls w.2.history))

/-- The event is no new process. -/
def Event.Alive : Event → Prop
  | .restart _ _ => False
  | _ => True

instance (e : Event) : Decidable e.Alive :=
  match e with
  | .restart _ _ => .isFalse id
  | .kline15m _ _ => .isTrue trivial
  | .kline1m _ _ => .isTrue trivial
  | .scan _ => .isTrue trivial

/-- What a kline event leaves alone. -/
lemma followsFlips_silentStep {w : MinuteState × Outbox} {s' : MinuteState} (h : FollowingAt w)
    (hpositions : s'.positions = w.1.positions) (hdir : s'.lastTrendDir = w.1.lastTrendDir)
    (hlast : s'.last15mOpen = w.1.last15mOpen) :
    FollowsFlips book w (s', w.2) ∧ FollowingAt (s', w.2) := by
  have hbook : book s' = book w.1 := by
    rw [book, book, hpositions, hdir]
  have hfollows : FollowsFlips book w (s', w.2) :=
    followsFlips_silent h.following.fits h.balanced hbook rfl
  refine ⟨hfollows, ⟨hfollows.cycle.after, fun hl => ?_⟩, hfollows.balanced⟩
  rw [hpositions]
  exact h.following.unstarted (hlast ▸ hl)

/-- One event of a process. -/
lemma followsFlips_step (henv : Acknowledges env) {w : MinuteState × Outbox} {e : Event}
    (h : FollowingAt w) (he : e.Alive) :
    FollowsFlips book w (x.step digest uuid5 env w e) ∧ FollowingAt (x.step digest uuid5 env w e) := by
  cases e with
  | restart loaded ok => exact absurd he id
  | kline15m ready latest =>
    refine followsFlips_silentStep h ?_ ?_ ?_
    all_goals
      unfold shouldScanAfter15m
      split
      · dsimp only
        split <;> rfl
      · rfl
  | kline1m ready latest =>
    refine followsFlips_silentStep h ?_ ?_ ?_
    all_goals
      unfold shouldScanAfter1m
      split
      · dsimp only
        split <;> rfl
      · rfl
  | scan input =>
    have hrun := followsFlips_run (acts_scan x digest uuid5 henv
      h.following input) h.balanced
    exact ⟨hrun.1, hrun.2, hrun.1.balanced⟩

/-- In every process that starts without a position the book follows the direction. -/
lemma along_followsFlips (henv : Acknowledges env) (d : Dispatcher) {events : List Event}
    (halive : ∀ e ∈ events, e.Alive) :
    Along (x.step digest uuid5 env) (fun w e => FollowsFlips book w (x.step digest uuid5 env w e))
      ({}, { dispatcher := d }) events := by
  refine Along.of_inv (P := fun _ e => e.Alive) (I := FollowingAt)
    (fun w e h he => (followsFlips_step henv h he).2)
    (fun w e h he => (followsFlips_step henv h he).1) ?_ (Along.of_mem halive _)
  exact ⟨⟨⟨Nat.zero_le 1, fun _ hp => absurd hp List.not_mem_nil⟩, fun _ => rfl⟩, fun _ => rfl⟩

end MinuteTrailing

end PaperTrade.Runner
