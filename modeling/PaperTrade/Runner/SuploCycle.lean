import PaperTrade.Runner.FlipTrades

/-!
# The book of `SuploXauRunnerStrategy` follows the direction
-/

namespace PaperTrade.Runner

open PaperTrade.Runtime Dispatcher

namespace SuploXau

variable {x : SuploXau} {digest : Logical → String} {uuid5 : String → String}
  {env : ℕ → DispatchEnv} {s s' : SuploState} {b : FlipBook String String ℤ}
  {ts : List (Trade String)}

/-- The book of a state. -/
def book (s : SuploState) : FlipBook String String ℤ :=
  ⟨s.positions.rows.map fun p => (p.positionId, p.side), s.lastTrendDir⟩

lemma trade?_openCall (p : SuploPosition) : (x.openCall p).trade? = some (.opened p.positionId) := rfl

lemma trade?_closeCall (id reason : String) (price : Option PyFloat) (t : ℤ) :
    (x.closeCall id reason price t).trade? = some (.closed id) := rfl

lemma trade?_modifyCall (id : String) (target : PyFloat) :
    (x.modifyCall id target).trade? = none := rfl

/-- The book and the candles seen and awaited are the same. -/
structure SameBook (s s' : SuploState) : Prop where
  book : book s' = book s
  clock : SameClock s s'

lemma SameBook.refl (s : SuploState) : SameBook s s := ⟨rfl, rfl, rfl⟩

lemma sameBook_update (s : SuploState) (id : String) (f : SuploPosition → SuploPosition)
    (hf : ∀ p, (f p).positionId = p.positionId) (hside : ∀ p, (f p).side = p.side) :
    SameBook s (update id f hf s) := by
  refine ⟨?_, rfl, rfl⟩
  unfold SuploXau.book update
  rw [map_rows_modify (g := fun p : SuploPosition => (p.positionId, p.side)) id hf]
  intro p
  rw [hf, hside]

lemma SameBook.trans {s₁ s₂ s₃ : SuploState} (h : SameBook s₁ s₂) (h' : SameBook s₂ s₃) :
    SameBook s₁ s₃ :=
  ⟨h'.book.trans h.book, h'.clock.1.trans h.clock.1, h'.clock.2.trans h.clock.2⟩

lemma rows_of_existing {p : SuploPosition} (h : existingPosition s = some p)
    (hone : s.positions.rows.length ≤ 1) : s.positions.rows = [p] := rows_eq_singleton h hone

lemma rows_of_none (h : existingPosition s = none) : s.positions.rows = [] :=
  List.head?_eq_none_iff.mp h

lemma book_of_rows {p : SuploPosition} (h : s.positions.rows = [p]) :
    book s = ⟨[(p.positionId, p.side)], s.lastTrendDir⟩ := by
  rw [book, h, List.map_singleton]

lemma book_of_cash (h : s.positions.rows = []) : book s = ⟨[], s.lastTrendDir⟩ := by
  rw [book, h, List.map_nil]

/-! ## The trailing level -/

lemma positionId_withPeak (peak : PyFloat) (p : SuploPosition) :
    (withPeak peak p).positionId = p.positionId := rfl

lemma positionId_withTarget (peak target : PyFloat) (p : SuploPosition) :
    (withTarget peak target p).positionId = p.positionId := rfl

lemma positionId_withEmitted (target : PyFloat) (p : SuploPosition) :
    (withEmitted target p).positionId = p.positionId := rfl

variable (x) in
/-- What `_manage_on_bar` sends on a candle, and the state it leaves. -/
def managed (c : Candle) (s : SuploState) : List Call × SuploState :=
  match existingPosition s with
  | none => ([], s)
  | some p =>
    match x.trail p c with
    | .flat => ([], update p.positionId (withPeak 0) (positionId_withPeak 0) s)
    | .hit target =>
      ([x.closeCall p.positionId "TRAILING_TP" (some target) c.time],
        { s with positions := s.positions.erase p.positionId })
    | .trailing peak target =>
      let held := update p.positionId (withTarget peak target) (positionId_withTarget peak target) s
      if Moved p target then
        ([x.modifyCall p.positionId target],
          update p.positionId (withEmitted target) (positionId_withEmitted target) held)
      else ([], held)

/-- `_manage_on_bar` closes the position or leaves the book alone. -/
lemma managed_cases (c : Candle) (s : SuploState) :
    (trades (x.managed c s).1 = [] ∧ SameBook s (x.managed c s).2) ∨
      ∃ p, existingPosition s = some p ∧ trades (x.managed c s).1 = [.closed p.positionId] ∧
        (x.managed c s).2 = { s with positions := s.positions.erase p.positionId } := by
  unfold managed
  cases hpos : existingPosition s with
  | none => exact .inl ⟨rfl, .refl s⟩
  | some p =>
    dsimp only
    cases x.trail p c with
    | flat => exact .inl ⟨rfl, sameBook_update s _ (withPeak 0) (fun _ => rfl) fun _ => rfl⟩
    | hit target => exact .inr ⟨p, rfl, rfl, rfl⟩
    | trailing peak target =>
      have hheld := sameBook_update s p.positionId (withTarget peak target) (fun _ => rfl) fun _ => rfl
      dsimp only
      split
      · exact .inl ⟨rfl, hheld.trans
          (sameBook_update _ p.positionId (withEmitted target) (fun _ => rfl) fun _ => rfl)⟩
      · exact .inl ⟨rfl, hheld⟩

/-! ## The methods -/

section Methods

variable (henv : Acknowledges env)
include henv

lemma ends_closePosition (id reason : String) (price : Option PyFloat) (t : ℤ) :
    Ends (x.closePosition digest env id reason price t) s () [x.closeCall id reason price t]
      { s with positions := s.positions.erase id } :=
  (Ends.emit henv fun _ => rfl).bind Ends.modify

lemma ends_manageOnBar (c : Candle) :
    Ends (x.manageOnBar digest env c) s () (x.managed c s).1 (x.managed c s).2 := by
  refine Ends.get_bind ?_
  unfold managed
  cases existingPosition s with
  | none => exact Ends.pure
  | some p =>
    dsimp only
    cases x.trail p c with
    | flat => exact Ends.modify
    | hit target => exact ends_closePosition henv p.positionId "TRAILING_TP" (some target) c.time
    | trailing peak target =>
      dsimp only
      by_cases hmoved : Moved p target
      · rw [if_pos hmoved, if_pos hmoved]
        exact Ends.modify.bind ((Ends.emit henv fun _ => rfl).bind Ends.modify)
      · rw [if_neg hmoved, if_neg hmoved]
        exact Ends.modify.bind Ends.pure

/-- `_open_if_allowed` in cash, after a turn of the direction. -/
lemma goes_openIfAllowed {d : ℤ} (hrows : s.positions.rows = [])
    (hb : BeforeFlip SideFits b ts ⟨[], d⟩) (hne : s.lastTrendDir ≠ d) {side : String}
    (hside : SideFits side s.lastTrendDir) (entry : PyFloat) (t : ℤ) :
    Acts (x.openIfAllowed digest uuid5 env side entry t) s (Goes book b ts) := by
  have hcash : existingPosition s = none := List.head?_eq_none_iff.mpr hrows
  have hturned : CashUntilFlip SideFits b ts (book s) := by
    rw [book_of_cash hrows]
    exact hb.turn _
  refine Acts.get_bind ?_
  rw [hcash]
  simp only [Option.isSome_none, Bool.false_eq_true, if_false]
  refine Acts.ofExcept_bind (fun qty _ => ?_) fun e _ => goes_done hturned
  split
  · exact goes_pure hturned
  · refine goes_then (Ends.emit henv fun _ => rfl) (Acts.modify (goes_done ?_))
    have hopened := hb.reopen (uuid5 (x.positionName side t)) hne hside
    rwa [book, rows_insertOrIgnore_empty hrows]

end Methods

/-! ## One step of the state machine -/

lemma entryStep_still {c : Candle} {direction : ℤ} (h : direction = s.lastTrendDir) :
    (x.entryStep s c direction).lastTrendDir = s.lastTrendDir ∧
      (x.entryStep s c direction).flipExitHit = false ∧
      (x.entryStep s c direction).flipOpen = false := by
  simp only [entryStep, stepStateMachine, if_pos h, and_self]

lemma posFromPosition_ne_zero (p : SuploPosition) : posFromPosition (some p) ≠ 0 := by
  unfold posFromPosition
  dsimp only
  split <;> decide

/-- A new direction asks for an entry, and ends the position that is there. -/
lemma entryStep_flip {c : Candle} {direction : ℤ} (h : direction ≠ s.lastTrendDir)
    (hdir : IsDirection direction) :
    (x.entryStep s c direction).lastTrendDir = direction ∧
      (x.entryStep s c direction).flipOpen = true ∧
      (x.entryStep s c direction).side = some (sideOf direction) ∧
      (∀ p, existingPosition s = some p → (x.entryStep s c direction).trailingExitHit = true ∨
        (x.entryStep s c direction).flipExitHit = true) := by
  have hzero : direction ≠ 0 := by
    rcases hdir with rfl | rfl <;> decide
  have hside : (some (if (if direction = downtrend then (-1 : ℤ) else 1) = -1 then "SHORT" else "LONG"))
      = some (sideOf direction) := by
    unfold sideOf
    split <;> rfl
  simp only [entryStep, stepStateMachine, if_neg h, if_neg hzero, hside, true_and]
  intro p hp
  have hpos := posFromPosition_ne_zero p
  rw [hp]
  generalize Option.any _ _ = hit
  cases hit with
  | true => exact .inl rfl
  | false => exact .inr (by simpa using hpos)

/-- What is left of `_evaluate_entries` after its exits, when the direction has not turned. -/
lemma goes_entry_still {step : StateStep} (hopen : step.flipOpen = false)
    (hb : CashUntilFlip SideFits b ts (book s)) (t : ℤ) :
    Acts (match step.flipOpen, step.side with
      | true, some side => x.openIfAllowed digest uuid5 env side step.entryPrice t
      | _, _ => pure () : Method SuploState Unit) s (Goes book b ts) := by
  rw [hopen]
  exact goes_pure hb

lemma goes_evaluateEntries (henv : Acknowledges env) {c : Candle} {direction : ℤ} (hdir : IsDirection direction)
    (hb : BeforeFlip SideFits b ts (book s)) :
    Acts (x.evaluateEntries digest uuid5 env c direction) s (Goes book b ts) := by
  have hone : s.positions.rows.length ≤ 1 := by
    have hone := hb.cycle.after.one
    rwa [book, List.length_map] at hone
  refine Acts.get_bind (Acts.modify_bind ?_)
  by_cases hturn : direction = s.lastTrendDir
  · obtain ⟨hlast, hflip, hopen⟩ := x.entryStep_still (c := c) hturn
    have hstate : { s with lastTrendDir := (x.entryStep s c direction).lastTrendDir } = s := by
      rw [hlast]
    rw [hstate]
    cases hpos : existingPosition s with
    | none => exact goes_entry_still hopen hb.cycle c.time
    | some p =>
      have hrows := rows_of_existing hpos hone
      dsimp only
      rw [hflip]
      split
      · refine goes_then (ends_closePosition henv _ _ _ _) (goes_entry_still hopen ?_ c.time)
        rw [book_of_rows hrows] at hb
        rw [book_of_cash (rows_erase_singleton hrows)]
        exact hb.cycle.close
      · exact goes_entry_still hopen hb.cycle c.time
  · obtain ⟨hlast, hopen, hside, hexit⟩ := x.entryStep_flip (c := c) hturn hdir
    rw [hlast, hopen, hside]
    cases hpos : existingPosition s with
    | none =>
      have hrows := rows_of_none hpos
      rw [book_of_cash hrows] at hb
      exact goes_openIfAllowed (s := { s with lastTrendDir := direction }) henv hrows hb hturn
        (sideFits_sideOf hdir) _ _
    | some p =>
      have hrows := rows_of_existing hpos hone
      rw [book_of_rows hrows] at hb
      let turned : SuploState := { s with lastTrendDir := direction }
      let cash : SuploState := { turned with positions := s.positions.erase p.positionId }
      have hopens : Acts (x.openIfAllowed digest uuid5 env (sideOf direction)
          (x.entryStep s c direction).entryPrice c.time) cash
          (Goes book b (ts ++ [.closed p.positionId])) :=
        goes_openIfAllowed (s := cash) henv (rows_erase_singleton hrows) hb.close hturn
          (sideFits_sideOf hdir) _ _
      have hclose (reason : String) (price : Option PyFloat) :
          Acts (x.closePosition digest env p.positionId reason price c.time >>= fun _ =>
            x.openIfAllowed digest uuid5 env (sideOf direction)
              (x.entryStep s c direction).entryPrice c.time) turned (Goes book b ts) := by
        have hends : Ends (x.closePosition digest env p.positionId reason price c.time) turned ()
            [x.closeCall p.positionId reason price c.time] cash :=
          ends_closePosition henv p.positionId reason price c.time
        exact goes_then hends hopens
      dsimp only
      split
      · exact hclose _ _
      · rename_i htrailing
        rw [if_pos ((hexit p hpos).resolve_left htrailing)]
        exact hclose _ _

/-! ## What entries and exits leave alone -/

/-- The memory of the strategy beside its positions. -/
def memory (s : SuploState) : ℤ × Option ℤ × Option ℤ :=
  (s.lastTrendDir, s.last15mOpen, s.pending15mOpen)

lemma keeps_closePosition (id reason : String) (price : Option PyFloat) (t : ℤ) :
    KeepsPart memory (x.closePosition digest env id reason price t) :=
  (KeepsPart.emit _).bind fun _ => KeepsPart.modifyState fun _ => rfl

lemma keeps_openIfAllowed (side : String) (entry : PyFloat) (t : ℤ) :
    KeepsPart memory (x.openIfAllowed digest uuid5 env side entry t) := by
  refine KeepsPart.getState.bind fun s => ?_
  split
  · exact KeepsPart.pure ()
  · refine (KeepsPart.ofExcept _).bind fun qty => ?_
    split
    · exact KeepsPart.pure ()
    · exact (KeepsPart.emit _).bind fun _ => KeepsPart.modifyState fun _ => rfl

lemma keeps_entry (step : StateStep) (t : ℤ) : KeepsPart memory
    (match step.flipOpen, step.side with
      | true, some side => x.openIfAllowed digest uuid5 env side step.entryPrice t
      | _, _ => pure () : Method SuploState Unit) := by
  split
  · exact keeps_openIfAllowed _ _ _
  · exact KeepsPart.pure ()

lemma entryStep_lastTrendDir (s : SuploState) (c : Candle) (direction : ℤ) :
    (x.entryStep s c direction).lastTrendDir = direction := by
  unfold entryStep stepStateMachine
  dsimp only
  split
  · rename_i h
    exact h.symm
  · split <;> rfl

/-- `_evaluate_entries` remembers the direction. -/
lemma memory_evaluateEntries (c : Candle) (direction : ℤ) (w : SuploState × Outbox) :
    memory ((x.evaluateEntries digest uuid5 env c direction).run w).2.1 =
      (direction, w.1.last15mOpen, w.1.pending15mOpen) := by
  unfold evaluateEntries
  rw [Coro.run_bind_ok (run_getState w), Coro.run_bind_ok (run_modifyState _ w),
    entryStep_lastTrendDir]
  have hkeeps : ∀ p : Method SuploState Unit, KeepsPart memory p →
      memory (p.run ({ w.1 with lastTrendDir := direction }, w.2)).2.1 =
        (direction, w.1.last15mOpen, w.1.pending15mOpen) := fun p hp => hp _
  refine hkeeps _ ?_
  cases existingPosition w.1 with
  | none => exact keeps_entry _ _
  | some p =>
    dsimp only
    split
    · exact (keeps_closePosition _ _ _ _).bind fun _ => keeps_entry _ _
    · split
      · exact (keeps_closePosition _ _ _ _).bind fun _ => keeps_entry _ _
      · exact keeps_entry _ _

/-! ## Scans and runs -/

/-- The book fits the direction, and nothing is held before the first candle of the process. -/
structure Following (s : SuploState) : Prop where
  fits : (book s).Fits SideFits
  unstarted : s.last15mOpen = none → s.positions.rows = []

lemma Following.one (h : Following s) : s.positions.rows.length ≤ 1 := by
  have hone := h.fits.one
  rwa [book, List.length_map] at hone

/-- What is managed before the entries are looked at. -/
lemma beforeFlip_managed (h : (book s).Fits SideFits) (c : Candle) :
    BeforeFlip SideFits (book s) (trades (x.managed c s).1) (book (x.managed c s).2) := by
  have hstart := BeforeFlip.start h
  rcases managed_cases (x := x) c s with ⟨htrades, hsame⟩ | ⟨p, hp, htrades, hstate⟩
  · rw [htrades, hsame.book]
    exact hstart
  · have hone : s.positions.rows.length ≤ 1 := by
      have hone := h.one
      rwa [book, List.length_map] at hone
    have hrows := rows_of_existing hp hone
    have hcash : book { s with positions := s.positions.erase p.positionId } = ⟨[], s.lastTrendDir⟩ :=
      book_of_cash (rows_erase_singleton hrows)
    rw [htrades, hstate, hcash]
    rw [book_of_rows hrows] at hstart ⊢
    exact hstart.close

lemma last15mOpen_managed (c : Candle) (s : SuploState) :
    (x.managed c s).2.last15mOpen = s.last15mOpen := by
  rcases managed_cases (x := x) c s with ⟨-, hsame⟩ | ⟨p, -, -, hstate⟩
  · exact hsame.clock.1
  · rw [hstate]

/-- The candles that a scan works on are there. -/
lemma series_ne_nil {input : ScanInput} {c : Candle} (h : x.scanCandle input s = some c) :
    x.series input ≠ [] := by
  intro hnil
  unfold scanCandle at h
  rw [hnil] at h
  split at h <;> cases h

lemma following_adopt (h : s.positions.rows = []) (t : ℤ) (candles : List Candle) :
    CashUntilFlip SideFits (book s) [] (book (adopt t candles s)) ∧ Following (adopt t candles s) := by
  have hnone : existingPosition s = none := List.head?_eq_none_iff.mpr h
  have hadopt : adopt t candles s = { s with
      last15mOpen := some t
      pending15mOpen := none
      lastTrendDir := (supertrendDirections 3 10 candles).getLast?.getD 0 } := by
    rw [adopt, hnone]
  have hturn : CashUntilFlip SideFits (⟨[], s.lastTrendDir⟩ : FlipBook String String ℤ) []
      ⟨[], (supertrendDirections 3 10 candles).getLast?.getD 0⟩ := .turn _ _
  rw [hadopt, book_of_cash h]
  have hbook : book { s with
      last15mOpen := some t
      pending15mOpen := none
      lastTrendDir := (supertrendDirections 3 10 candles).getLast?.getD 0 } =
        ⟨[], (supertrendDirections 3 10 candles).getLast?.getD 0⟩ := book_of_cash h
  refine ⟨?_, ?_, fun hl => by cases hl⟩
  · rw [hbook]
    exact hturn
  · rw [hbook]
    exact hturn.after

variable (x digest uuid5) in
/-- The entries of a scan, after `_manage_on_bar`. -/
lemma goes_entries (henv : Acknowledges env) {input : ScanInput} {c : Candle}
    (hseries : x.series input ≠ []) (hb : BeforeFlip SideFits b ts (book s)) :
    Acts (if input.canOpen ∧ x.isTradeTime c.time then
        x.evaluateEntries digest uuid5 env c
          ((supertrendDirections x.factor x.atrPeriod (x.series input)).getLast?.getD 0)
      else pure () : Method SuploState Unit) s (Goes book b ts) := by
  split
  · exact goes_evaluateEntries henv (isDirection_last _ _ hseries) hb
  · exact goes_pure hb.cycle

lemma keeps_entries (input : ScanInput) (c : Candle) (direction : ℤ) :
    KeepsPart SuploState.last15mOpen
      (if input.canOpen ∧ x.isTradeTime c.time then
        x.evaluateEntries digest uuid5 env c direction
      else pure () : Method SuploState Unit) := by
  intro w
  split
  · exact congrArg (fun m => m.2.1) (memory_evaluateEntries c direction w)
  · rfl

variable (x digest uuid5) in
/-- One scan of a strategy that follows the direction. -/
lemma acts_scan (henv : Acknowledges env) (h : Following s) (input : ScanInput) :
    Acts (x.scan digest uuid5 env input) s fun _ cs s' =>
      CashUntilFlip SideFits (book s) (trades cs) (book s') ∧ Following s' := by
  refine Acts.get_bind ?_
  cases hcandle : x.scanCandle input s with
  | none => exact Acts.pure ⟨.stay h.fits, h⟩
  | some c =>
    dsimp only
    by_cases hlast : s.last15mOpen = none
    · rw [if_pos hlast]
      exact Acts.modify (following_adopt (h.unstarted hlast) c.time (x.series input))
    · rw [if_neg hlast]
      refine Acts.modify_bind ?_
      let s₁ : SuploState := { s with last15mOpen := some c.time, pending15mOpen := none }
      have hfits : (book s₁).Fits SideFits := h.fits
      refine (ends_manageOnBar henv c).then_acts ?_
      have hentries := (goes_entries x digest uuid5 henv (c := c)
        (series_ne_nil hcandle) (beforeFlip_managed (x := x) hfits c)).keeps (keeps_entries input c _)
      refine hentries.mono fun r cs s' hs' => ?_
      obtain ⟨hgoes, hkept⟩ := hs'
      have hcycle : CashUntilFlip SideFits (book s) (trades ((x.managed c s₁).1 ++ cs)) (book s') := by
        rw [trades_append]
        exact hgoes
      refine ⟨hcycle, hcycle.after, fun hl => ?_⟩
      rw [hkept, last15mOpen_managed] at hl
      cases hl

/-- What a run needs for the book to be one that follows the direction. -/
structure FollowingAt (w : SuploState × Outbox) : Prop where
  following : Following w.1
  balanced : (book w.1).Balanced (trades (calls w.2.history))

/-- The event is no new process. -/
def Event.Alive : Event → Prop
  | .restart _ _ => False
  | _ => True

instance (e : Event) : Decidable e.Alive :=
  match e with
  | .restart _ _ => .isFalse id
  | .kline _ _ => .isTrue trivial
  | .scan _ => .isTrue trivial

/-- One event of a process. -/
lemma followsFlips_step (henv : Acknowledges env) {w : SuploState × Outbox} {e : Event}
    (h : FollowingAt w) (he : e.Alive) :
    FollowsFlips book w (x.step digest uuid5 env w e) ∧ FollowingAt (x.step digest uuid5 env w e) := by
  cases e with
  | restart loaded ok => exact absurd he id
  | kline ready latest =>
    obtain ⟨hbook, hpositions, hlast⟩ : book (x.shouldScanAfterEvent ready latest w.1) = book w.1 ∧
        (x.shouldScanAfterEvent ready latest w.1).positions = w.1.positions ∧
        (x.shouldScanAfterEvent ready latest w.1).last15mOpen = w.1.last15mOpen := by
      unfold shouldScanAfterEvent
      split
      · dsimp only
        split
        · exact ⟨rfl, rfl, rfl⟩
        · exact ⟨rfl, rfl, rfl⟩
      · exact ⟨rfl, rfl, rfl⟩
    have hfollows : FollowsFlips book w (x.step digest uuid5 env w (.kline ready latest)) :=
      followsFlips_silent h.following.fits h.balanced hbook rfl
    refine ⟨hfollows, ⟨hfollows.cycle.after, fun hl => ?_⟩, hfollows.balanced⟩
    change (x.shouldScanAfterEvent ready latest w.1).positions.rows = []
    rw [hpositions]
    exact h.following.unstarted (hlast ▸ hl)
  | scan input =>
    have hrun := followsFlips_run (acts_scan x digest uuid5 henv
      h.following input) h.balanced
    exact ⟨hrun.1, hrun.2, hrun.1.balanced⟩

/-- In every process that starts without a position the book follows the direction. -/
lemma along_followsFlips (henv : Acknowledges env) (d : Dispatcher) {events : List Event}
    (halive : ∀ e ∈ events, e.Alive) :
    Along (x.step digest uuid5 env) (fun w e => FollowsFlips book w (x.step digest uuid5 env w e))
      ({}, { dispatcher := d }) events := by
  refine Along.of_inv (P := fun _ e => e.Alive) (I := FollowingAt)
    (fun w e h he => (followsFlips_step henv h he).2)
    (fun w e h he => (followsFlips_step henv h he).1) ?_ (Along.of_mem halive _)
  exact ⟨⟨⟨Nat.zero_le 1, fun _ hp => absurd hp List.not_mem_nil⟩, fun _ => rfl⟩, fun _ => rfl⟩

end SuploXau

end PaperTrade.Runner
