import PaperTrade.Runner.FlipWatch
import PaperTrade.Runner.MinuteCycle

/-!
# The direction that the minute-trailing strategies remember

The first scan of a process takes the direction of a position that it loads from the side of the
position, whatever the candles say. Every other scan of 15m candles remembers the direction of its newest
candle.
-/

namespace PaperTrade.Runner

open PaperTrade.Runtime Dispatcher

namespace MinuteTrailing

/-- The candle that `_scan_15m` works on. -/
def worked (x : MinuteTrailing) (candles : List Candle) (t : ℤ) : Option Candle :=
  let series := x.series SuploXau.m15Ms candles
  series.getLast?.filter fun newest => !decide (series.length < x.minM15Bars ∨ newest.time ≠ t)

/-- How the scans of the strategy use the direction. -/
def watch (x : MinuteTrailing) : FlipWatch MinuteState Event where
  scanned s
    | .scan input => (s.pending15mOpen.bind (x.worked input.m15)).map fun _ =>
        supertrendDirections x.factor x.atrPeriod (x.series SuploXau.m15Ms input.m15)
    | _ => none
  remembered s := s.last15mOpen.map fun _ => s.lastTrendDir
  adopted s
    | .scan input =>
      match existingPosition s with
      | some p => (withTrendDir p).lastTrendDir
      | none => (supertrendDirections x.factor x.atrPeriod
          (x.series SuploXau.m15Ms input.m15)).getLast?.getD 0
    | _ => 0
  gated _ _ := false

variable {x : MinuteTrailing} {digest : Logical → String} {uuid5 : String → String}
  {env : ℕ → DispatchEnv} {s : MinuteState}

lemma remembered_eq {d : ℤ} {t : Option ℤ} (h : memory s = (d, t)) :
    x.watch.remembered s = t.map fun _ => d := by
  have hdir : s.lastTrendDir = d := congrArg Prod.fst h
  have hclock : s.last15mOpen = t := congrArg Prod.snd h
  change s.last15mOpen.map (fun _ => s.lastTrendDir) = _
  rw [hclock, hdir]

lemma remembered_congr {s' : MinuteState} (h : memory s' = memory s) :
    x.watch.remembered s' = x.watch.remembered s := remembered_eq h

/-- A trade closes. -/
lemma acts_closePosition (id reason : String) (price : PyFloat) (t : ℤ) :
    Acts (x.closePosition digest env id reason price t) s fun _ cs _ => ¬ Opens cs := by
  have hclose : ¬ Opens [x.closeCall id reason price t] :=
    not_opens_singleton (show "CLOSE" ≠ "OPEN" by decide)
  exact Acts.emit_bind (Acts.modify hclose) hclose

/-- `_scan_1m` opens nothing. -/
lemma acts_scan1m (candles : List Candle) (t : ℤ) :
    Acts (x.scan1m digest env candles t) s fun _ cs s' => ¬ Opens cs ∧ memory s' = memory s := by
  have hquiet : Acts (x.scan1m digest env candles t) s fun _ cs _ => ¬ Opens cs := by
    unfold scan1m
    split
    · exact Acts.pure not_opens_nil
    · split
      · exact Acts.pure not_opens_nil
      · refine Acts.modify_bind (Acts.get_bind ?_)
        split
        · exact Acts.pure not_opens_nil
        · split
          · exact acts_closePosition _ _ _ _
          · exact Acts.modify not_opens_nil
  exact hquiet.keeps (keeps_scan1m candles t)

lemma acts_openIfAllowed (side : String) (entry : PyFloat) (t : ℤ) (minAtrProfit : Option PyFloat) :
    Acts (x.openIfAllowed digest uuid5 env side entry t minAtrProfit) s fun _ _ _ => True := by
  refine Acts.get_bind ?_
  split
  · exact Acts.pure trivial
  · refine Acts.ofExcept_bind (fun qty _ => ?_) fun _ _ => trivial
    split
    · exact Acts.pure trivial
    · exact Acts.emit_bind (Acts.modify trivial) trivial

variable (x digest uuid5 env) in
/-- The comparison opens on a new direction only, and remembers the direction. -/
lemma acts_flip (newest : Candle) (series : List Candle) (direction : ℤ) :
    Acts (x.flip digest uuid5 env newest series direction) s fun _ cs s' =>
      (Opens cs → direction ≠ s.lastTrendDir) ∧ memory s' = (direction, s.last15mOpen) := by
  have hopens : Acts (x.flip digest uuid5 env newest series direction) s fun _ cs _ =>
      Opens cs → direction ≠ s.lastTrendDir := by
    refine Acts.get_bind ?_
    by_cases hsame : direction = s.lastTrendDir
    · rw [if_pos hsame]
      exact Acts.pure fun ho => absurd ho not_opens_nil
    · rw [if_neg hsame]
      have hnew : ∀ {p : Method MinuteState Unit} {s' : MinuteState},
          Acts p s' (fun _ _ _ => True) →
            Acts p s' fun _ cs _ => Opens cs → direction ≠ s.lastTrendDir :=
        fun hp => hp.mono fun _ _ _ _ _ => hsame
      refine Acts.modify_bind (hnew ?_)
      dsimp only
      cases existingPosition s with
      | none => exact acts_openIfAllowed _ _ _ _
      | some p =>
        dsimp only
        split
        · refine Acts.bind ((acts_closePosition _ _ _ _).mono fun _ _ _ _ => ⟨fun _ _ => ?_, ?_⟩)
          · exact acts_openIfAllowed _ _ _ _
          · exact fun _ _ => trivial
        · exact Acts.pure trivial
  intro o
  obtain ⟨cs, hcalls, hcs⟩ := hopens o
  exact ⟨cs, hcalls, hcs, memory_flip x digest uuid5 env newest series direction (s, o)⟩

/-- `_scan_15m` in a scan with a pending candle. -/
lemma effect_scan15m {input : MinuteInput} {t : ℤ} (hpending : s.pending15mOpen = some t) :
    Acts (x.scan15m digest uuid5 env input.m15 t) s fun _ cs s' =>
      x.watch.Effect s (.scan input) cs s' := by
  have hscanned : x.watch.scanned s (.scan input) = (x.worked input.m15 t).map fun _ =>
      supertrendDirections x.factor x.atrPeriod (x.series SuploXau.m15Ms input.m15) := by
    simp only [watch, hpending, Option.bind_some]
  unfold scan15m
  dsimp only
  cases hnewest : (x.series SuploXau.m15Ms input.m15).getLast? with
  | none =>
    refine Acts.pure (FlipWatch.effect_idle ?_ not_opens_nil (.inl rfl))
    rw [hscanned, worked, hnewest, Option.filter_none, Option.map_none]
  | some newest =>
    have hseries : x.series SuploXau.m15Ms input.m15 ≠ [] := by
      intro hnil
      rw [hnil] at hnewest
      cases hnewest
    dsimp only
    by_cases hskip : (x.series SuploXau.m15Ms input.m15).length < x.minM15Bars ∨ newest.time ≠ t
    · rw [if_pos hskip]
      refine Acts.pure (FlipWatch.effect_idle ?_ not_opens_nil (.inl rfl))
      rw [hscanned, worked, hnewest, Option.filter_some, decide_eq_true hskip]
      rfl
    · rw [if_neg hskip]
      let directions := supertrendDirections x.factor x.atrPeriod (x.series SuploXau.m15Ms input.m15)
      have hworks : x.watch.scanned s (.scan input) = some directions := by
        rw [hscanned, worked, hnewest, Option.filter_some, decide_eq_false hskip]
        rfl
      refine Acts.get_bind ?_
      by_cases hnew : s.last15mOpen = none
      · rw [if_pos hnew]
        refine Acts.modify (FlipWatch.effect_adopt hworks ?_ not_opens_nil ?_)
        · simp only [watch, hnew, Option.map_none]
        · simp only [watch, adopt]
          cases existingPosition s <;> rfl
      · rw [if_neg hnew]
        obtain ⟨last, hlast⟩ := Option.ne_none_iff_exists'.mp hnew
        have hremembered : x.watch.remembered s = some s.lastTrendDir := by
          simp only [watch, hlast, Option.map_some]
        have hdirection : directions.getLast? = some (directions.getLast?.getD 0) := by
          rw [List.getLast?_eq_some_getLast (supertrendDirections_ne_nil _ _ hseries)]
          rfl
        have hzero : directions.getLast?.getD 0 ≠ 0 := by
          rcases isDirection_last x.factor x.atrPeriod hseries with h | h <;> rw [h] <;> decide
        refine Acts.modify_bind ((acts_flip x digest uuid5 env _ _ _).mono fun r cs s' hs' => ?_)
        exact FlipWatch.effect_compare hworks hremembered rfl hdirection (remembered_eq hs'.2)
          fun ho => ⟨hzero, hs'.1 ho⟩

/-- What a scan does with the direction. -/
lemma effect_scan (input : MinuteInput) :
    Acts (x.scan digest uuid5 env input) s fun _ cs s' => x.watch.Effect s (.scan input) cs s' := by
  have h15m : Acts (x.scanPending15m digest uuid5 env input) s fun _ cs s' =>
      x.watch.Effect s (.scan input) cs s' := by
    refine Acts.get_bind ?_
    cases hpending : s.pending15mOpen with
    | none =>
      refine Acts.pure (FlipWatch.effect_idle ?_ not_opens_nil (.inl rfl))
      simp only [watch, hpending, Option.bind_none, Option.map_none]
    | some t =>
      refine Acts.bind ((effect_scan15m hpending).mono fun r cs s' hs' => ⟨fun _ _ => ?_, fun _ _ => hs'⟩)
      exact Acts.modify (hs'.append not_opens_nil rfl)
  refine Acts.bind (h15m.mono fun r cs s' hs' => ⟨fun _ _ => Acts.get_bind ?_, fun _ _ => hs'⟩)
  cases s'.pending1mOpen with
  | none => exact Acts.pure (hs'.append not_opens_nil rfl)
  | some t =>
    refine Acts.bind ((acts_scan1m input.m1 t).mono fun r cs' s'' hs'' => ⟨fun _ _ => ?_, fun _ _ => ?_⟩)
    · refine Acts.modify ?_
      rw [List.append_nil]
      exact hs'.append hs''.1 (remembered_congr hs''.2)
    · exact hs'.append hs''.1 (remembered_congr hs''.2)

lemma memory_shouldScanAfter15m (ready : Bool) (latest : Option ℤ) (s : MinuteState) :
    memory (x.shouldScanAfter15m ready latest s) = memory s := by
  unfold shouldScanAfter15m
  split
  · dsimp only
    split <;> rfl
  · rfl

lemma memory_shouldScanAfter1m (ready : Bool) (latest : Option ℤ) (s : MinuteState) :
    memory (x.shouldScanAfter1m ready latest s) = memory s := by
  unfold shouldScanAfter1m
  split
  · dsimp only
    split <;> rfl
  · rfl

/-- What an event does with the direction. -/
lemma effect_step (w : MinuteState × Outbox) (e : Event) :
    x.watch.Effect w.1 e (sentSince w (x.step digest uuid5 env w e)) (x.step digest uuid5 env w e).1 := by
  cases e with
  | kline15m ready latest =>
    have hsilent : sentSince w (x.step digest uuid5 env w (.kline15m ready latest)) = [] :=
      sentSince_eq (List.append_nil _).symm
    rw [hsilent]
    refine FlipWatch.effect_idle rfl not_opens_nil (.inl (remembered_congr ?_))
    exact memory_shouldScanAfter15m ready latest w.1
  | kline1m ready latest =>
    have hsilent : sentSince w (x.step digest uuid5 env w (.kline1m ready latest)) = [] :=
      sentSince_eq (List.append_nil _).symm
    rw [hsilent]
    refine FlipWatch.effect_idle rfl not_opens_nil (.inl (remembered_congr ?_))
    exact memory_shouldScanAfter1m ready latest w.1
  | restart loaded ok =>
    have hsilent : sentSince w (x.step digest uuid5 env w (.restart loaded ok)) = [] :=
      sentSince_restart _ _ _ _
    rw [hsilent]
    exact FlipWatch.effect_idle rfl not_opens_nil (.inr rfl)
  | scan input => exact (effect_scan input).run w.2

end MinuteTrailing

end PaperTrade.Runner
