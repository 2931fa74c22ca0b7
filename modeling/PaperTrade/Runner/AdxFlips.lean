import PaperTrade.Runner.FlipWatch
import PaperTrade.Runner.AdxCycle

/-!
# The direction that `SupertrendAdxEma13TpRunnerStrategy` remembers

The strategy decides on the last closed candle, when the next one opens. Over restarts its life is a
sequence of events and new processes.
-/

namespace PaperTrade.Runner

open PaperTrade.Runtime Dispatcher

namespace SupertrendAdx

/-- An event of a process, or a new process with the positions that it loads. -/
inductive LifeEvent
  | event (e : Event)
  | restart (loaded : Table AdxPosition.positionId) (ok : Bool)

/-- One event of the life of a strategy. -/
def lifeStep (x : SupertrendAdx) (digest : Logical → String) (uuid5 : String → String)
    (env : ℕ → DispatchEnv) (w : AdxState × Outbox) : LifeEvent → AdxState × Outbox
  | .event e => x.step digest uuid5 env w e
  | .restart loaded ok => ({ positions := loaded }, w.2.restart ok)

/-- The candle at whose open `_scan_15m` works on the closed ones. -/
def worked (x : SupertrendAdx) (candles : List Candle) (t : ℤ) : Option Candle :=
  let series := x.series candles
  series.getLast?.filter fun newest =>
    !decide ((series.length < x.minM15Bars + 1 ∨ newest.time ≠ t) ∨ series.dropLast = [])

/-- How the scans of the strategy use the direction. -/
def watch (x : SupertrendAdx) : FlipWatch AdxState LifeEvent where
  scanned s
    | .event (.scan candles) => (s.pending15mOpen.bind (x.worked candles)).map fun _ =>
        supertrendDirections x.factor x.atrPeriod (x.series candles).dropLast
    | _ => none
  remembered s := s.last15mOpen.map fun _ => s.lastTrendDir
  adopted s
    | .event (.scan candles) =>
      match existingPosition s with
      | some p => if p.side = "LONG" then uptrend else downtrend
      | none => (supertrendDirections x.factor x.atrPeriod (x.series candles).dropLast).getLast?.getD 0
    | _ => 0
  gated _ _ := false

variable {x : SupertrendAdx} {digest : Logical → String} {uuid5 : String → String}
  {env : ℕ → DispatchEnv} {s : AdxState}

lemma remembered_eq {d : ℤ} {t : Option ℤ} (h : memory s = (d, t)) :
    x.watch.remembered s = t.map fun _ => d := by
  have hdir : s.lastTrendDir = d := congrArg Prod.fst h
  have hclock : s.last15mOpen = t := congrArg Prod.snd h
  change s.last15mOpen.map (fun _ => s.lastTrendDir) = _
  rw [hclock, hdir]

/-- A trade closes. -/
lemma acts_closePosition (id reason : String) (price : PyFloat) (t : ℤ) :
    Acts (x.closePosition digest env id reason price t) s fun _ cs _ => ¬ Opens cs := by
  have hclose : ¬ Opens [x.closeCall id reason price t] :=
    not_opens_singleton (show "CLOSE" ≠ "OPEN" by decide)
  exact Acts.emit_bind (Acts.modify hclose) hclose

lemma acts_openIfAllowed (side : String) (entry : PyFloat) (t : ℤ) :
    Acts (x.openIfAllowed digest uuid5 env side entry t) s fun _ _ _ => True := by
  refine Acts.get_bind ?_
  split
  · exact Acts.pure trivial
  · refine Acts.ofExcept_bind (fun qty _ => ?_) fun _ _ => trivial
    split
    · exact Acts.pure trivial
    · exact Acts.emit_bind (Acts.modify trivial) trivial

variable (x digest uuid5 env) in
/-- A scan opens on a new direction only, and remembers the direction. -/
lemma acts_scanCandle (newest : Candle) (closed : List Candle) :
    Acts (x.scanCandle digest uuid5 env newest closed) s fun _ cs s' =>
      (Opens cs → (supertrendDirections x.factor x.atrPeriod closed).getLast?.getD 0 ≠ s.lastTrendDir) ∧
        memory s' =
          ((supertrendDirections x.factor x.atrPeriod closed).getLast?.getD 0, some newest.time) := by
  have hopens : Acts (x.scanCandle digest uuid5 env newest closed) s fun _ cs _ =>
      Opens cs →
        (supertrendDirections x.factor x.atrPeriod closed).getLast?.getD 0 ≠ s.lastTrendDir := by
    refine Acts.get_bind (Acts.modify_bind ?_)
    by_cases hsame : (supertrendDirections x.factor x.atrPeriod closed).getLast?.getD 0 = s.lastTrendDir
    · rw [if_neg (not_not.mpr hsame)]
      have hquiet : ∀ {p : Method AdxState Unit} {s' : AdxState},
          Acts p s' (fun _ cs _ => ¬ Opens cs) → Acts p s' fun _ cs _ => Opens cs →
            (supertrendDirections x.factor x.atrPeriod closed).getLast?.getD 0 ≠ s.lastTrendDir :=
        fun hp => hp.mono fun _ _ _ hcs ho => absurd ho hcs
      refine hquiet ?_
      cases existingPosition s with
      | none => exact Acts.pure not_opens_nil
      | some p =>
        refine Acts.modify_bind ?_
        split
        · exact acts_closePosition _ _ _ _
        · exact Acts.pure not_opens_nil
    · rw [if_pos hsame]
      have hnew : ∀ {p : Method AdxState Unit} {s' : AdxState}, Acts p s' (fun _ _ _ => True) →
          Acts p s' fun _ cs _ => Opens cs →
            (supertrendDirections x.factor x.atrPeriod closed).getLast?.getD 0 ≠ s.lastTrendDir :=
        fun hp => hp.mono fun _ _ _ _ _ => hsame
      refine Acts.modify_bind (hnew ?_)
      have hopen : ∀ s' : AdxState, Acts (x.openIfAllowed digest uuid5 env
          (if (supertrendDirections x.factor x.atrPeriod closed).getLast?.getD 0 = downtrend then "SHORT"
            else "LONG") newest.opening newest.time) s' fun _ _ _ => True :=
        fun _ => acts_openIfAllowed _ _ _
      unfold closeOpposite
      cases existingPosition s with
      | none => exact hopen _
      | some p =>
        dsimp only
        split
        · refine Acts.bind ((acts_closePosition _ _ _ _).mono fun _ _ s' _ => ⟨fun _ _ => hopen s', ?_⟩)
          exact fun _ _ => trivial
        · exact hopen _
  intro o
  obtain ⟨cs, hcalls, hcs⟩ := hopens o
  exact ⟨cs, hcalls, hcs, memory_scanCandle x digest uuid5 env newest closed (s, o)⟩

/-- `_scan_15m` in a scan with a pending candle. -/
lemma effect_scan15m {candles : List Candle} {t : ℤ} (hpending : s.pending15mOpen = some t) :
    Acts (x.scan15m digest uuid5 env candles t) s fun _ cs s' =>
      x.watch.Effect s (.event (.scan candles)) cs s' := by
  have hscanned : x.watch.scanned s (.event (.scan candles)) = (x.worked candles t).map fun _ =>
      supertrendDirections x.factor x.atrPeriod (x.series candles).dropLast := by
    simp only [watch, hpending, Option.bind_some]
  unfold scan15m
  dsimp only
  cases hnewest : (x.series candles).getLast? with
  | none =>
    refine Acts.pure (FlipWatch.effect_idle ?_ not_opens_nil (.inl rfl))
    rw [hscanned, worked, hnewest, Option.filter_none, Option.map_none]
  | some newest =>
    dsimp only
    by_cases hskip : (x.series candles).length < x.minM15Bars + 1 ∨ newest.time ≠ t
    · rw [if_pos hskip]
      refine Acts.pure (FlipWatch.effect_idle ?_ not_opens_nil (.inl rfl))
      rw [hscanned, worked, hnewest, Option.filter_some, decide_eq_true (.inl hskip)]
      rfl
    · rw [if_neg hskip]
      by_cases hclosed : (x.series candles).dropLast = []
      · rw [if_pos hclosed]
        refine Acts.ofExcept (r := .error .noCandle) (FlipWatch.effect_idle ?_ not_opens_nil (.inl rfl))
        rw [hscanned, worked, hnewest, Option.filter_some, decide_eq_true (.inr hclosed)]
        rfl
      · rw [if_neg hclosed]
        let directions := supertrendDirections x.factor x.atrPeriod (x.series candles).dropLast
        have hworks : x.watch.scanned s (.event (.scan candles)) = some directions := by
          rw [hscanned, worked, hnewest, Option.filter_some,
            decide_eq_false (not_or.mpr ⟨hskip, hclosed⟩)]
          rfl
        refine Acts.get_bind ?_
        by_cases hnew : s.last15mOpen = none
        · rw [if_pos hnew]
          refine Acts.modify (FlipWatch.effect_adopt hworks ?_ not_opens_nil ?_)
          · simp only [watch, hnew, Option.map_none]
          · simp only [watch, adopt]
            cases existingPosition s <;> rfl
        · rw [if_neg hnew]
          obtain ⟨last, hlast⟩ := Option.ne_none_iff_exists'.mp hnew
          have hremembered : x.watch.remembered s = some s.lastTrendDir := by
            simp only [watch, hlast, Option.map_some]
          have hdirection : directions.getLast? = some (directions.getLast?.getD 0) := by
            rw [List.getLast?_eq_some_getLast (supertrendDirections_ne_nil _ _ hclosed)]
            rfl
          have hzero : directions.getLast?.getD 0 ≠ 0 := by
            rcases isDirection_last x.factor x.atrPeriod hclosed with h | h <;> rw [h] <;> decide
          refine (acts_scanCandle x digest uuid5 env newest _).mono fun r cs s' hs' => ?_
          exact FlipWatch.effect_compare hworks hremembered rfl hdirection (remembered_eq hs'.2)
            fun ho => ⟨hzero, hs'.1 ho⟩

/-- What a scan does with the direction. -/
lemma effect_scan (candles : List Candle) :
    Acts (x.scan digest uuid5 env candles) s fun _ cs s' =>
      x.watch.Effect s (.event (.scan candles)) cs s' := by
  refine Acts.get_bind ?_
  cases hpending : s.pending15mOpen with
  | none =>
    refine Acts.pure (FlipWatch.effect_idle ?_ not_opens_nil (.inl rfl))
    simp only [watch, hpending, Option.bind_none, Option.map_none]
  | some t =>
    refine Acts.bind ((effect_scan15m hpending).mono fun r cs s' hs' => ⟨fun _ _ => ?_, fun _ _ => hs'⟩)
    exact Acts.modify (hs'.append not_opens_nil rfl)

/-- What an event does with the direction. -/
lemma effect_step (w : AdxState × Outbox) (e : LifeEvent) :
    x.watch.Effect w.1 e (sentSince w (x.lifeStep digest uuid5 env w e))
      (x.lifeStep digest uuid5 env w e).1 := by
  cases e with
  | restart loaded ok =>
    have hsilent : sentSince w (x.lifeStep digest uuid5 env w (.restart loaded ok)) = [] :=
      sentSince_restart _ _ _ _
    rw [hsilent]
    exact FlipWatch.effect_idle rfl not_opens_nil (.inr rfl)
  | event e =>
    cases e with
    | kline ready latest =>
      have hsilent : sentSince w (x.lifeStep digest uuid5 env w (.event (.kline ready latest))) = [] :=
        sentSince_eq (List.append_nil _).symm
      rw [hsilent]
      refine FlipWatch.effect_idle rfl not_opens_nil (.inl ?_)
      change x.watch.remembered (x.shouldScanAfterEvent ready latest w.1) = _
      unfold shouldScanAfterEvent
      split
      · dsimp only
        split <;> rfl
      · rfl
    | scan candles => exact (effect_scan candles).run w.2

end SupertrendAdx

end PaperTrade.Runner
