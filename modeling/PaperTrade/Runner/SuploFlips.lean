import PaperTrade.Runner.FlipWatch
import PaperTrade.Runner.SuploCycle

/-!
# The direction that `SuploXauRunnerStrategy` remembers

The first scan of a process without a position remembers the direction with the default factor and
period, and a scan in which no entries are allowed leaves the remembered direction as it is.
-/

namespace PaperTrade.Runner

open PaperTrade.Runtime Dispatcher

namespace SuploXau

/-- How the scans of the strategy use the direction. -/
def watch (x : SuploXau) : FlipWatch SuploState Event where
  scanned s
    | .scan input => (x.scanCandle input s).map fun _ =>
        supertrendDirections x.factor x.atrPeriod (x.series input)
    | _ => none
  remembered s := s.last15mOpen.map fun _ => s.lastTrendDir
  adopted s
    | .scan input =>
      match existingPosition s with
      | some p => (withTrendDir p).lastTrendDir
      | none => (supertrendDirections 3 10 (x.series input)).getLast?.getD 0
    | _ => 0
  gated s
    | .scan input => !input.canOpen || (x.scanCandle input s).any fun c => !x.isTradeTime c.time
    | _ => false

variable {x : SuploXau} {digest : Logical → String} {uuid5 : String → String}
  {env : ℕ → DispatchEnv} {s : SuploState}

lemma not_opens_managed (c : Candle) (s : SuploState) : ¬ Opens (x.managed c s).1 := by
  have hother : ∀ {type : String} {fields : Entries}, type ≠ "OPEN" → ¬ Opens [x.call type fields] :=
    fun h => not_opens_singleton h
  unfold managed
  split
  · exact not_opens_nil
  · split
    · exact not_opens_nil
    · exact hother (by decide)
    · dsimp only
      split
      · exact hother (by decide)
      · exact not_opens_nil

lemma acts_closePosition (id reason : String) (price : Option PyFloat) (t : ℤ) :
    Acts (x.closePosition digest env id reason price t) s fun _ cs _ => ¬ Opens cs := by
  have hclose : ¬ Opens [x.closeCall id reason price t] := not_opens_singleton (c := x.closeCall _ _ _ _)
    (show "CLOSE" ≠ "OPEN" by decide)
  exact Acts.emit_bind (Acts.modify hclose) hclose

lemma acts_openIfAllowed (side : String) (entry : PyFloat) (t : ℤ) :
    Acts (x.openIfAllowed digest uuid5 env side entry t) s fun _ _ _ => True := by
  refine Acts.get_bind ?_
  split
  · exact Acts.pure trivial
  · refine Acts.ofExcept_bind (fun qty _ => ?_) fun _ _ => trivial
    split
    · exact Acts.pure trivial
    · exact Acts.emit_bind (Acts.modify trivial) trivial

/-- What is left of `_evaluate_entries` after its exits opens on a new direction only. -/
lemma acts_entry (before : SuploState) (c : Candle) (direction t : ℤ) :
    Acts (match (x.entryStep before c direction).flipOpen, (x.entryStep before c direction).side with
      | true, some side => x.openIfAllowed digest uuid5 env side
        (x.entryStep before c direction).entryPrice t
      | _, _ => pure () : Method SuploState Unit) s fun _ cs _ =>
      direction = before.lastTrendDir → ¬ Opens cs := by
  by_cases hsame : direction = before.lastTrendDir
  · obtain ⟨-, -, hopen⟩ := x.entryStep_still (c := c) hsame
    rw [hopen]
    exact Acts.pure fun _ => not_opens_nil
  · split
    · exact (acts_openIfAllowed _ _ _).mono fun _ _ _ _ h => absurd h hsame
    · exact Acts.pure fun _ => not_opens_nil

/-- An exit before the entry does not open. -/
lemma acts_exit {p : Method SuploState Unit} {P : Prop}
    (h : ∀ s', Acts p s' fun _ cs _ => P → ¬ Opens cs) (id reason : String) (price : Option PyFloat)
    (t : ℤ) : Acts (x.closePosition digest env id reason price t >>= fun _ => p) s fun _ cs _ =>
      P → ¬ Opens cs := by
  refine Acts.bind ((acts_closePosition id reason price t).mono fun r cs s' hcs =>
    ⟨fun _ _ => ?_, fun _ _ _ => hcs⟩)
  refine (h s').mono fun r' cs' s'' hcs' hp hopens => ?_
  rcases opens_append.mp hopens with hopens | hopens
  · exact hcs hopens
  · exact hcs' hp hopens

/-- `_evaluate_entries` opens on a new direction only, and remembers the direction. -/
lemma acts_evaluateEntries (c : Candle) (direction : ℤ) :
    Acts (x.evaluateEntries digest uuid5 env c direction) s fun _ cs s' =>
      (direction = s.lastTrendDir → ¬ Opens cs) ∧
        memory s' = (direction, s.last15mOpen, s.pending15mOpen) := by
  have hopens : Acts (x.evaluateEntries digest uuid5 env c direction) s fun _ cs _ =>
      direction = s.lastTrendDir → ¬ Opens cs := by
    refine Acts.get_bind (Acts.modify_bind ?_)
    cases existingPosition s with
    | none => exact acts_entry s c direction c.time
    | some p =>
      dsimp only
      split
      · exact acts_exit (fun _ => acts_entry s c direction c.time) _ _ _ _
      · split
        · exact acts_exit (fun _ => acts_entry s c direction c.time) _ _ _ _
        · exact acts_entry s c direction c.time
  intro o
  obtain ⟨cs, hcalls, hcs⟩ := hopens o
  exact ⟨cs, hcalls, hcs, memory_evaluateEntries c direction (s, o)⟩

lemma remembered_eq {t d : ℤ} (hclock : s.last15mOpen = some t) (hdir : s.lastTrendDir = d) :
    x.watch.remembered s = some d := by
  change s.last15mOpen.map (fun _ => s.lastTrendDir) = some d
  rw [hclock, hdir, Option.map_some]

/-- A scan that is not the first one of its process. -/
lemma effect_work (henv : Acknowledges env) {input : ScanInput} {c : Candle} {last : ℤ}
    (hcandle : x.scanCandle input s = some c) (hlast : s.last15mOpen = some last) :
    Acts (do
      x.manageOnBar digest env c
      if input.canOpen ∧ x.isTradeTime c.time then
        x.evaluateEntries digest uuid5 env c
          ((supertrendDirections x.factor x.atrPeriod (x.series input)).getLast?.getD 0)
      else pure ()) { s with last15mOpen := some c.time, pending15mOpen := none }
      fun _ cs s' => x.watch.Effect s (.scan input) cs s' := by
  let seen : SuploState := { s with last15mOpen := some c.time, pending15mOpen := none }
  refine (ends_manageOnBar henv c).then_acts ?_
  have hclock : (x.managed c seen).2.last15mOpen = some c.time := last15mOpen_managed c seen
  have hdir : (x.managed c seen).2.lastTrendDir = s.lastTrendDir := by
    rcases managed_cases (x := x) c seen with ⟨-, hsame⟩ | ⟨p, -, -, hstate⟩
    · exact congrArg FlipBook.direction hsame.book
    · rw [hstate]
  have hquiet := not_opens_managed (x := x) c seen
  have hscanned : x.watch.scanned s (.scan input) =
      some (supertrendDirections x.factor x.atrPeriod (x.series input)) := by
    simp only [watch, hcandle, Option.map_some]
  have hremembered : x.watch.remembered s = some s.lastTrendDir := remembered_eq hlast rfl
  have hseries := series_ne_nil hcandle
  have hzero : (supertrendDirections x.factor x.atrPeriod (x.series input)).getLast?.getD 0 ≠ 0 := by
    rcases isDirection_last x.factor x.atrPeriod hseries with h | h <;> rw [h] <;> decide
  have hnewest : (supertrendDirections x.factor x.atrPeriod (x.series input)).getLast? =
      some ((supertrendDirections x.factor x.atrPeriod (x.series input)).getLast?.getD 0) := by
    rw [List.getLast?_eq_some_getLast (supertrendDirections_ne_nil _ _ hseries)]
    rfl
  unfold FlipWatch.Effect
  rw [hscanned, hremembered]
  dsimp only
  by_cases hgate : input.canOpen = true ∧ x.isTradeTime c.time = true
  · have hopen : x.watch.gated s (.scan input) = false := by
      simp [watch, hcandle, hgate.1, hgate.2]
    rw [if_pos hgate, hopen]
    refine (acts_evaluateEntries c _).mono fun r cs s' hs' => ?_
    obtain ⟨hsame, hmemory⟩ := hs'
    simp only [Bool.false_eq_true, if_false]
    refine ⟨?_, fun hopens => ⟨_, hnewest, hzero, fun heq => ?_⟩⟩
    · rw [hnewest]
      have hs'clock : s'.last15mOpen = some c.time :=
        (congrArg (fun m => m.2.1) hmemory).trans hclock
      exact remembered_eq hs'clock (congrArg (fun m => m.1) hmemory)
    · rcases opens_append.mp hopens with hopens | hopens
      · exact hquiet hopens
      · exact hsame (heq.trans hdir.symm) hopens
  · have hclosed : x.watch.gated s (.scan input) = true := by
      simp only [watch, hcandle, Option.any_some, Bool.or_eq_true, Bool.not_eq_true']
      by_contra hne
      rw [not_or, Bool.not_eq_false, Bool.not_eq_false] at hne
      exact hgate hne
    rw [if_neg hgate, hclosed]
    refine Acts.pure ?_
    rw [List.append_nil]
    exact ⟨hquiet, remembered_eq hclock hdir⟩

/-- What a scan does with the direction. -/
lemma effect_scan (henv : Acknowledges env) (input : ScanInput) :
    Acts (x.scan digest uuid5 env input) s fun _ cs s' => x.watch.Effect s (.scan input) cs s' := by
  refine Acts.get_bind ?_
  cases hcandle : x.scanCandle input s with
  | none =>
    refine Acts.pure (FlipWatch.effect_idle ?_ not_opens_nil (.inl rfl))
    simp only [watch, hcandle, Option.map_none]
  | some c =>
    dsimp only
    cases hlast : s.last15mOpen with
    | none =>
      rw [if_pos rfl]
      refine Acts.modify ?_
      unfold FlipWatch.Effect watch adopt
      simp only [hcandle, hlast, Option.map_some, Option.map_none]
      refine ⟨not_opens_nil, ?_⟩
      cases existingPosition s <;> rfl
    | some last =>
      rw [if_neg (Option.some_ne_none last)]
      exact Acts.modify_bind (effect_work henv hcandle hlast)

/-- What an event does with the direction. -/
lemma effect_step (henv : Acknowledges env) (w : SuploState × Outbox) (e : Event) :
    x.watch.Effect w.1 e (sentSince w (x.step digest uuid5 env w e)) (x.step digest uuid5 env w e).1 := by
  cases e with
  | kline ready latest =>
    have hsilent : sentSince w (x.step digest uuid5 env w (.kline ready latest)) = [] :=
      sentSince_eq (List.append_nil _).symm
    rw [hsilent]
    refine FlipWatch.effect_idle rfl not_opens_nil (.inl ?_)
    change x.watch.remembered (x.shouldScanAfterEvent ready latest w.1) = _
    unfold shouldScanAfterEvent
    split
    · dsimp only
      split <;> rfl
    · rfl
  | restart loaded ok =>
    have hsilent : sentSince w (x.step digest uuid5 env w (.restart loaded ok)) = [] :=
      sentSince_restart _ _ _ _
    rw [hsilent]
    exact FlipWatch.effect_idle rfl not_opens_nil (.inr rfl)
  | scan input => exact (effect_scan henv input).run w.2

end SuploXau

end PaperTrade.Runner
