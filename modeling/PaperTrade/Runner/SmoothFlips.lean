import PaperTrade.Runner.FlipWatch
import PaperTrade.Runner.SmoothCycle

/-!
# The direction that `SmoothChanRunnerStrategy` remembers

The strategy decides on the last closed candle of its timeframe. Before the ATR has a seed a candle has
the direction 0, and then the first scan of a process remembers an uptrend.
-/

namespace PaperTrade.Runner

open PaperTrade.Runtime Dispatcher

lemma multiDirections_ne_nil (factor : PyFloat) {period : ℕ} (hperiod : 0 < period)
    {candles : List Candle} (h : candles ≠ []) : multiDirections factor period candles ≠ [] := by
  have hpos : 0 < candles.length := List.length_pos_of_ne_nil h
  by_cases hfew : candles.length < period
  · have hdrop : candles.drop (period - 1) = [] := List.drop_eq_nil_of_le (by omega)
    rw [multiDirections, hdrop]
    dsimp only
    rw [Ne, List.replicate_eq_nil_iff]
    omega
  · intro hnil
    have hmany : period ≤ candles.length := by omega
    have hdirection := isDirection_multiDirections factor hperiod hmany
    rw [hnil] at hdirection
    rcases hdirection with h | h <;> exact absurd h (by decide)

namespace SmoothChan

/-- The candle at whose open `_scan_eff` works on the closed ones. -/
def workedOn (x : SmoothChan) (candles : List Candle) (t : ℤ) : Option Candle :=
  let series := x.effSeries candles
  series.getLast?.filter fun newest =>
    !decide (((series.length : ℤ) < x.minBars + 1 ∨ newest.time ≠ t) ∨ series.dropLast = [])

/-- How the scans of the strategy use the direction. -/
def watch (x : SmoothChan) : FlipWatch SmoothState Event where
  scanned s
    | .scan candles => (s.pendingEffOpen.bind (x.workedOn candles)).map fun _ =>
        multiDirections x.factor x.atrPeriod (x.effSeries candles).dropLast
    | _ => none
  remembered s := s.lastEffOpen.map fun _ => s.lastDir
  adopted s
    | .scan candles =>
      match existingPosition s with
      | some p => if p.side = "LONG" then uptrend else downtrend
      | none =>
        let direction := x.direction (x.effSeries candles).dropLast
        if direction = 0 then uptrend else direction
    | _ => 0
  gated _ _ := false

variable {x : SmoothChan} {digest : Logical → String} {uuid5 : String → String}
  {env : ℕ → DispatchEnv} {s : SmoothState}

lemma remembered_eq {d : ℤ} {t : Option ℤ} (h : memory s = (d, t)) :
    x.watch.remembered s = t.map fun _ => d := by
  have hdir : s.lastDir = d := congrArg Prod.fst h
  have hclock : s.lastEffOpen = t := congrArg Prod.snd h
  change s.lastEffOpen.map (fun _ => s.lastDir) = _
  rw [hclock, hdir]

lemma not_opens_managed (c : Candle) (price : PyFloat) (s : SmoothState) :
    ¬ Opens (x.managed c price s).1 := by
  unfold managed
  split
  · exact not_opens_nil
  · split
    · exact not_opens_singleton (show "CLOSE" ≠ "OPEN" by decide)
    · exact not_opens_nil

/-- A trade closes. -/
lemma acts_closePosition (id reason : String) (price : PyFloat) (t : ℤ) :
    Acts (x.closePosition digest env id reason price t) s fun _ cs _ => ¬ Opens cs := by
  have hclose : ¬ Opens [x.closeCall id reason price t] :=
    not_opens_singleton (show "CLOSE" ≠ "OPEN" by decide)
  exact Acts.emit_bind (Acts.modify hclose) hclose

lemma acts_closeOpposite (direction : ℤ) (newest : Candle) :
    Acts (x.closeOpposite digest env direction newest) s fun _ cs _ => ¬ Opens cs := by
  refine Acts.get_bind ?_
  split
  · exact Acts.pure not_opens_nil
  · split
    · exact acts_closePosition _ _ _ _
    · exact Acts.pure not_opens_nil

/-- `_open_if_allowed` needs an ATR. -/
lemma acts_openIfAllowed (side : String) (entry : PyFloat) (t : ℤ) (atr : PyFloat) :
    Acts (x.openIfAllowed digest uuid5 env side entry t atr) s fun _ cs _ =>
      Opens cs → atr.isFinite = true := by
  have hquiet : Opens [] → atr.isFinite = true := fun ho => absurd ho not_opens_nil
  refine Acts.get_bind ?_
  split
  · exact Acts.pure hquiet
  · split
    · exact Acts.pure hquiet
    · rename_i hatr
      have hfinite : atr.isFinite = true := by
        rw [not_or, Bool.not_eq_false] at hatr
        exact hatr.1
      refine Acts.ofExcept_bind (fun qty _ => ?_) fun _ _ => hquiet
      split
      · exact Acts.pure hquiet
      · exact Acts.emit_bind (Acts.modify fun _ => hfinite) fun _ => hfinite

variable (x digest uuid5 env) in
/-- The comparison opens on a new direction only, and remembers the direction. -/
lemma acts_flip (newest : Candle) (direction : ℤ) (atr : PyFloat) :
    Acts (x.flip digest uuid5 env newest direction atr) s fun _ cs s' =>
      (Opens cs → atr.isFinite = true ∧ direction ≠ s.lastDir) ∧
        memory s' = (direction, s.lastEffOpen) := by
  have hopens : Acts (x.flip digest uuid5 env newest direction atr) s fun _ cs _ =>
      Opens cs → atr.isFinite = true ∧ direction ≠ s.lastDir := by
    refine Acts.get_bind ?_
    by_cases hsame : direction = s.lastDir
    · rw [if_pos hsame]
      exact Acts.pure fun ho => absurd ho not_opens_nil
    · rw [if_neg hsame]
      refine Acts.modify_bind (Acts.bind ((acts_closeOpposite direction newest).mono
        fun r cs s' hcs => ⟨fun _ _ => ?_, fun _ _ ho => absurd ho hcs⟩))
      refine (acts_openIfAllowed _ _ _ _).mono fun r' cs' s'' hcs' ho => ⟨hcs' ?_, hsame⟩
      exact (opens_append.mp ho).resolve_left hcs
  intro o
  obtain ⟨cs, hcalls, hcs⟩ := hopens o
  exact ⟨cs, hcalls, hcs, memory_flip x digest uuid5 env newest direction atr (s, o)⟩

/-- `_scan_eff` on a candle that is not the first one. -/
lemma effect_work (henv : Acknowledges env) {candles : List Candle} {newest last : Candle} {clock : ℤ}
    (hworks : x.watch.scanned s (.scan candles) =
      some (multiDirections x.factor x.atrPeriod (x.effSeries candles).dropLast))
    (hclosed : (x.effSeries candles).dropLast ≠ []) (hlast : s.lastEffOpen = some clock) :
    Acts (do
      x.manage digest env last newest.opening
      x.flip digest uuid5 env newest (x.direction (x.effSeries candles).dropLast)
        (x.atr (x.effSeries candles).dropLast)) { s with lastEffOpen := some newest.time }
      fun _ cs s' => x.watch.Effect s (.scan candles) cs s' := by
  let seen : SmoothState := { s with lastEffOpen := some newest.time }
  have hmemory : memory (x.managed last newest.opening seen).2 = (s.lastDir, some newest.time) :=
    memory_managed last newest.opening seen
  have hdirection : (multiDirections x.factor x.atrPeriod (x.effSeries candles).dropLast).getLast? =
      some (x.direction (x.effSeries candles).dropLast) := by
    rw [direction, List.getLast?_eq_some_getLast
      (multiDirections_ne_nil x.factor x.atrPeriod_pos hclosed)]
    rfl
  refine (ends_manage henv last newest.opening).then_acts ?_
  refine (acts_flip x digest uuid5 env newest _ _).mono fun r cs s' hs' => ?_
  have hclock : (x.managed last newest.opening seen).2.lastEffOpen = some newest.time :=
    congrArg Prod.snd hmemory
  have hstored : memory s' = (x.direction (x.effSeries candles).dropLast, some newest.time) := by
    rw [hs'.2, hclock]
  have hremembered : x.watch.remembered s = some s.lastDir := by
    simp only [watch, hlast, Option.map_some]
  refine FlipWatch.effect_compare hworks hremembered rfl hdirection (remembered_eq hstored) fun ho => ?_
  obtain ⟨hatr, hne⟩ := hs'.1
    ((opens_append.mp ho).resolve_left (not_opens_managed last newest.opening seen))
  refine ⟨fun hzero => ?_, fun heq => hne (heq.trans (congrArg Prod.fst hmemory).symm)⟩
  rcases isDirection_of_atr hatr with h | h <;> rw [h] at hzero <;> exact absurd hzero (by decide)

/-- `_scan_eff` in a scan with a pending candle. -/
lemma effect_scanEff (henv : Acknowledges env) {candles : List Candle} {t : ℤ}
    (hpending : s.pendingEffOpen = some t) :
    Acts (x.scanEff digest uuid5 env candles t) s fun _ cs s' =>
      x.watch.Effect s (.scan candles) cs s' := by
  have hscanned : x.watch.scanned s (.scan candles) = (x.workedOn candles t).map fun _ =>
      multiDirections x.factor x.atrPeriod (x.effSeries candles).dropLast := by
    simp only [watch, hpending, Option.bind_some]
  unfold scanEff
  dsimp only
  split
  · rename_i newest last hnewest hlastClosed
    have hclosed : (x.effSeries candles).dropLast ≠ [] := by
      intro hnil
      rw [hnil] at hlastClosed
      cases hlastClosed
    by_cases hskip : ((x.effSeries candles).length : ℤ) < x.minBars + 1 ∨ newest.time ≠ t
    · rw [if_pos hskip]
      refine Acts.pure (FlipWatch.effect_idle ?_ not_opens_nil (.inl rfl))
      rw [hscanned, workedOn, hnewest, Option.filter_some, decide_eq_true (.inl hskip)]
      rfl
    · rw [if_neg hskip]
      have hworks : x.watch.scanned s (.scan candles) =
          some (multiDirections x.factor x.atrPeriod (x.effSeries candles).dropLast) := by
        rw [hscanned, workedOn, hnewest, Option.filter_some,
          decide_eq_false (not_or.mpr ⟨hskip, hclosed⟩)]
        rfl
      refine Acts.get_bind ?_
      cases hlast : s.lastEffOpen with
      | none =>
        rw [if_pos rfl]
        refine Acts.modify (FlipWatch.effect_adopt hworks ?_ not_opens_nil ?_)
        · simp only [watch, hlast, Option.map_none]
        · simp only [watch, adopt]
          cases existingPosition s <;> rfl
      | some l =>
        rw [if_neg (Option.some_ne_none l)]
        exact Acts.modify_bind (effect_work henv hworks hclosed hlast)
  · rename_i newest hnewest hnone
    have hnil : (x.effSeries candles).dropLast = [] := List.getLast?_eq_none_iff.mp hnone
    have hidle : x.watch.scanned s (.scan candles) = none := by
      rw [hscanned, workedOn, hnewest, Option.filter_some, decide_eq_true (.inr hnil)]
      rfl
    split
    · exact Acts.pure (FlipWatch.effect_idle hidle not_opens_nil (.inl rfl))
    · exact Acts.ofExcept (r := .error .noCandle) (FlipWatch.effect_idle hidle not_opens_nil (.inl rfl))
  · rename_i hnewest
    refine Acts.pure (FlipWatch.effect_idle ?_ not_opens_nil (.inl rfl))
    rw [hscanned, workedOn, hnewest, Option.filter_none, Option.map_none]

/-- What a scan does with the direction. -/
lemma effect_scan (henv : Acknowledges env) (candles : List Candle) :
    Acts (x.scan digest uuid5 env candles) s fun _ cs s' => x.watch.Effect s (.scan candles) cs s' := by
  refine Acts.get_bind ?_
  cases hpending : s.pendingEffOpen with
  | none =>
    refine Acts.pure (FlipWatch.effect_idle ?_ not_opens_nil (.inl rfl))
    simp only [watch, hpending, Option.bind_none, Option.map_none]
  | some t =>
    refine Acts.bind ((effect_scanEff henv hpending).mono fun r cs s' hs' =>
      ⟨fun _ _ => ?_, fun _ _ => hs'⟩)
    exact Acts.modify (hs'.append not_opens_nil rfl)

/-- What an event does with the direction. -/
lemma effect_step (henv : Acknowledges env) (w : SmoothState × Outbox) (e : Event) :
    x.watch.Effect w.1 e (sentSince w (x.step digest uuid5 env w e)) (x.step digest uuid5 env w e).1 := by
  cases e with
  | kline ready latest =>
    have hsilent : sentSince w (x.step digest uuid5 env w (.kline ready latest)) = [] :=
      sentSince_eq (List.append_nil _).symm
    rw [hsilent]
    refine FlipWatch.effect_idle rfl not_opens_nil (.inl ?_)
    change x.watch.remembered (x.shouldScanAfterEvent ready latest w.1) = _
    unfold shouldScanAfterEvent
    split
    · split
      · rfl
      · split <;> rfl
    · rfl
  | restart loaded ok =>
    have hsilent : sentSince w (x.step digest uuid5 env w (.restart loaded ok)) = [] :=
      sentSince_restart _ _ _ _
    rw [hsilent]
    exact FlipWatch.effect_idle rfl not_opens_nil (.inr rfl)
  | scan candles => exact (effect_scan henv candles).run w.2

end SmoothChan

end PaperTrade.Runner
