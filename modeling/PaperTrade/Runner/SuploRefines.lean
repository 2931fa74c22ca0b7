import PaperTrade.Runner.Dedup
import PaperTrade.Runner.SuploCycle

/-!
# `SuploXauRunnerStrategy` refines its reference

The strategy trails its position in `_manage_on_bar`, and then steps the reference over the same candle in
a state that it rebuilds from the position. Here the reference runs by itself (`Reference`,
`referenceTrace`), and the OPEN and CLOSE signals of the strategy are compared with its exits and entries.

`Matches` is the relation between the two: the side and the entry are the same, and so are the peaks, but
for a peak that is not positive, which the strategy stores as zero (`SamePeak`). A candle on which the
level is hit leaves no position behind, and one on which it is not hit leaves a position whose level the
same candle does not hit again, so the second look at the level in `_evaluate_entries` finds nothing.
-/

namespace PaperTrade.Runner

open PaperTrade.Runtime Dispatcher

namespace SuploXau

/-! ## The reference by itself -/

/-- What the loop of the reference keeps between two candles. -/
structure Reference where
  position : ℤ
  entryPrice : PyFloat
  peakGain : PyFloat
  lastTrendDir : ℤ

/-- An entry or an exit: the side or the reason, the price and the candle. -/
inductive TraceEntry
  | opened (side : String) (price : PyFloat) (candle : ℤ)
  | closed (reason : String) (price : Option PyFloat) (candle : ℤ)
deriving DecidableEq

/-- What a step of the reference does on the candle at `t`, in the order in which it does it. -/
def traceOf (step : StateStep) (t : ℤ) : List TraceEntry :=
  (if step.trailingExitHit then [.closed "TRAILING_TP" step.targetExitPrice t] else []) ++
    (if step.flipExitHit then [.closed "TREND_FLIP" (some step.entryPrice) t] else []) ++
    if step.flipOpen then step.side.toList.map fun side => .opened side step.entryPrice t else []

/-- What a step hands to the next one. -/
def keptBy (step : StateStep) : Reference :=
  ⟨step.position, step.entryPrice, step.peakGain, step.lastTrendDir⟩

variable (x : SuploXau)

/-- A step of the reference. -/
def referenceStep (r : Reference) (c : Candle) (direction : ℤ) : StateStep :=
  stepStateMachine r.position r.entryPrice r.peakGain r.lastTrendDir c.high c.low c.close direction
    x.retracePct

/-- The trace of the reference over candles and their directions. -/
def referenceTrace : Reference → List (Candle × ℤ) → List TraceEntry
  | _, [] => []
  | r, (c, direction) :: scans =>
    traceOf (x.referenceStep r c direction) c.time ++
      referenceTrace (keptBy (x.referenceStep r c direction)) scans

/-! ## The strategy beside it -/

/-- The newest direction of the candles of a scan. -/
def newestDirection (candles : List Candle) : ℤ :=
  (supertrendDirections x.factor x.atrPeriod (x.series { candles })).getLast?.getD 0

/-- What a scan of these candles works on, when there are enough of them: the newest one and its
direction. -/
def scanned (candles : List Candle) : Option (Candle × ℤ) :=
  if (x.series { candles }).length < x.minBars then none
  else (x.series { candles }).getLast?.map fun c => (c, x.newestDirection candles)

/-- The newest candle arrives, and is scanned. -/
def arrival (candles : List Candle) : List Event :=
  [.kline true (candles.getLast?.map Candle.time), .scan { candles }]

/-- When the newest candle opened. -/
def newestOpen (candles : List Candle) : Option ℤ := candles.getLast?.map fun c => x.barOpenMs c.time

/-- The candle of each scan is the one after that of the scan before. -/
def GapFree (history : List (List Candle)) : Prop :=
  history.IsChain fun before after =>
    ∃ t, x.newestOpen before = some t ∧ x.newestOpen after = some (t + m15Ms)

/-- The signal says what the entry of the trace says. -/
def Signals (call : Call) : TraceEntry → Prop
  | .opened side price t => ∃ p : SuploPosition, p.side = side ∧ p.entry = price ∧
      p.entryCandleOpenMs = t ∧ call = x.openCall p
  | .closed reason price t => ∃ id, call = x.closeCall id reason price t

/-- The OPEN and CLOSE signals. -/
def opensAndCloses (cs : List Call) : List Call :=
  cs.filter fun c => c.logical.type = "OPEN" ∨ c.logical.type = "CLOSE"

/-- The OPEN and CLOSE signals are those of the trace. -/
def Traced (cs : List Call) (trace : List TraceEntry) : Prop :=
  List.Forall₂ x.Signals (opensAndCloses cs) trace

/-- The state of the strategy as one of the reference. -/
def referenceOf (s : SuploState) : Reference :=
  ⟨posFromPosition (existingPosition s), ((existingPosition s).map SuploPosition.entry).getD 0,
    ((existingPosition s).map SuploPosition.peakGain).getD 0, s.lastTrendDir⟩

/-- A peak that is not positive is as good as any other. -/
def SamePeak (a b : PyFloat) : Prop := a = b ∨ a ≤ 0 ∧ b ≤ 0

/-- The strategy is where the reference is. -/
structure Matches (r : Reference) (s : SuploState) : Prop where
  one : s.positions.rows.length ≤ 1
  trend : s.lastTrendDir = r.lastTrendDir
  position : posFromPosition (existingPosition s) = r.position
  held : ∀ p, existingPosition s = some p → p.entry = r.entryPrice ∧ SamePeak p.peakGain r.peakGain

lemma matches_referenceOf {s : SuploState} (h : s.positions.rows.length ≤ 1) :
    Matches (referenceOf s) s := by
  refine ⟨h, rfl, rfl, fun p hp => ?_⟩
  simp only [referenceOf, hp, Option.map_some, Option.getD_some, true_and]
  exact .inl rfl

/-! ## Traces -/

variable {x}

lemma opensAndCloses_append (cs cs' : List Call) :
    opensAndCloses (cs ++ cs') = opensAndCloses cs ++ opensAndCloses cs' := List.filter_append cs cs'

lemma traced_nil : x.Traced [] [] := .nil

lemma Traced.append {cs cs' : List Call} {trace trace' : List TraceEntry} (h : x.Traced cs trace)
    (h' : x.Traced cs' trace') : x.Traced (cs ++ cs') (trace ++ trace') := by
  unfold Traced
  rw [opensAndCloses_append]
  exact List.rel_append h h'

lemma traced_modify (id : String) (target : PyFloat) : x.Traced [x.modifyCall id target] [] := .nil

lemma traced_close (id reason : String) (price : Option PyFloat) (t : ℤ) :
    x.Traced [x.closeCall id reason price t] [.closed reason price t] := .cons ⟨id, rfl⟩ .nil

lemma traced_open (p : SuploPosition) :
    x.Traced [x.openCall p] [.opened p.side p.entry p.entryCandleOpenMs] :=
  .cons ⟨p, rfl, rfl, rfl, rfl⟩ .nil

/-! ## Peaks -/

lemma not_pos_of_nonpos {a : PyFloat} (h : a ≤ 0) : ¬ 0 < a := by
  change PyFloat.ble a 0 = true at h
  change ¬ PyFloat.blt 0 a = true
  rcases a with _ | (_ | _) | q <;> simp_all [PyFloat.ble, PyFloat.blt]

/-- A number that is neither positive nor not positive is none. -/
lemma eq_nan_of_neither {a : PyFloat} (hle : ¬ a ≤ 0) (hlt : ¬ 0 < a) : a = .nan := by
  by_contra hne
  exact hle (PyFloat.le_of_not_lt (fun h => PyFloat.noConfusion h) hne hlt)

lemma lt_of_nonpos_of_pos {a b : PyFloat} (ha : a ≤ 0) (hb : 0 < b) : a < b := by
  change PyFloat.ble a 0 = true at ha
  change PyFloat.blt 0 b = true at hb
  change PyFloat.blt a b = true
  rcases a with _ | (_ | _) | p <;> rcases b with _ | (_ | _) | q <;>
    simp_all [PyFloat.ble, PyFloat.blt]
  linarith

/-- A gain that is not positive leaves the peak below zero. -/
lemma max_nonpos {a g : PyFloat} (ha : a ≤ 0) (hg : ¬ 0 < g) : a.max g ≤ 0 := by
  unfold PyFloat.max
  split
  · rename_i hlt
    have hnan : g ≠ .nan := by
      rintro rfl
      exact PyFloat.not_lt_nan a hlt
    exact PyFloat.le_of_not_lt (fun h => PyFloat.noConfusion h) hnan hg
  · exact ha

lemma SamePeak.max {a b : PyFloat} (h : SamePeak a b) (g : PyFloat) :
    SamePeak (a.max g) (b.max g) := by
  rcases h with rfl | ⟨ha, hb⟩
  · exact .inl rfl
  · by_cases hg : 0 < g
    · left
      rw [PyFloat.max, if_pos (lt_of_nonpos_of_pos ha hg), PyFloat.max,
        if_pos (lt_of_nonpos_of_pos hb hg)]
    · exact .inr ⟨max_nonpos ha hg, max_nonpos hb hg⟩

lemma SamePeak.nonpos {a b : PyFloat} (h : SamePeak a b) (ha : a ≤ 0) : b ≤ 0 := by
  rcases h with rfl | ⟨-, hb⟩
  · exact ha
  · exact hb

lemma SamePeak.eq_of_not_nonpos {a b : PyFloat} (h : SamePeak a b) (ha : ¬ a ≤ 0) : a = b :=
  h.resolve_right fun hle => ha hle.1

/-! ## The trailing rule of the reference -/

/-- What the first half of `step_state_machine` decides: the peak, the level, and whether it is hit. -/
structure Exit where
  peak : PyFloat
  target : Option PyFloat
  hit : Bool

/-- The first half of `step_state_machine`. -/
def exitOf (currentPos : ℤ) (entryP peakP high low retracePct : PyFloat) : Exit :=
  let currGain := if currentPos = 1 then high - entryP else entryP - low
  let peak := if currentPos ≠ 0 ∧ peakP < currGain then currGain else peakP
  let target : Option PyFloat :=
    if currentPos ≠ 0 ∧ 0 < peak then
      let allowedGain := peak * (1 - retracePct)
      some (if currentPos = 1 then entryP + allowedGain else entryP - allowedGain)
    else none
  ⟨peak, target, target.any fun target =>
    if currentPos = 1 then decide (low ≤ target) else decide (target ≤ high)⟩

/-- The second half of `step_state_machine`, after the exit `e`. -/
def flipOf (r : Reference) (e : Exit) (close : PyFloat) (direction : ℤ) : StateStep :=
  if direction = r.lastTrendDir then
    ⟨r.position, r.entryPrice, r.peakGain, e.target, r.lastTrendDir, e.hit, false, false, none⟩
  else if direction = 0 then
    ⟨r.position, r.entryPrice, r.peakGain, e.target, direction, e.hit, false, false, none⟩
  else
    let flipped := if direction = downtrend then -1 else 1
    ⟨flipped, close, 0, e.target, direction, e.hit, r.position ≠ 0, true,
      some (if flipped = -1 then "SHORT" else "LONG")⟩

/-- The reference after the first half of its step. -/
def exited (r : Reference) (e : Exit) : Reference :=
  { r with position := if e.hit then 0 else r.position, peakGain := if e.hit then 0 else e.peak }

variable (x) in
/-- The exit of a state of the reference on a candle. -/
def referenceExit (r : Reference) (c : Candle) : Exit :=
  exitOf r.position r.entryPrice r.peakGain c.high c.low x.retracePct

lemma referenceStep_eq (r : Reference) (c : Candle) (direction : ℤ) :
    x.referenceStep r c direction =
      flipOf (exited r (x.referenceExit r c)) (x.referenceExit r c) c.close direction := rfl

lemma entryStep_eq (s : SuploState) (c : Candle) (direction : ℤ) :
    x.entryStep s c direction = x.referenceStep (referenceOf s) c direction := rfl

/-- In cash no level is hit. -/
lemma referenceExit_flat {r : Reference} (h : r.position = 0) (c : Candle) :
    x.referenceExit r c = ⟨r.peakGain, none, false⟩ := by
  simp [referenceExit, exitOf, h]

/-- The decision of `_manage_on_bar` is that of the reference. -/
def Agrees (e : Exit) : Trail → Prop
  | .flat => e.hit = false ∧ e.peak ≤ 0
  | .hit target => e.hit = true ∧ e.target = some target
  | .trailing peak _ => e.hit = false ∧ e.peak = peak

/-- The gain that a candle brings a position. -/
def gainOn (p : SuploPosition) (c : Candle) : PyFloat :=
  if p.side = "LONG" then c.high - p.entry else p.entry - c.low

variable (x) in
/-- The level of a peak. -/
def levelOf (p : SuploPosition) (peak : PyFloat) : PyFloat :=
  if p.side = "LONG" then p.entry + peak * (1 - x.retracePct)
  else p.entry - peak * (1 - x.retracePct)

/-- The candle reaches the level. -/
def Reaches (p : SuploPosition) (c : Candle) (target : PyFloat) : Prop :=
  if p.side = "LONG" then c.low ≤ target else target ≤ c.high

instance (p : SuploPosition) (c : Candle) (target : PyFloat) : Decidable (Reaches p c target) :=
  inferInstanceAs (Decidable (if p.side = "LONG" then c.low ≤ target else target ≤ c.high))

lemma trail_eq (p : SuploPosition) (c : Candle) :
    x.trail p c =
      if p.peakGain.max (gainOn p c) ≤ 0 then .flat
      else if Reaches p c (x.levelOf p (p.peakGain.max (gainOn p c))) then
        .hit (x.levelOf p (p.peakGain.max (gainOn p c)))
      else .trailing (p.peakGain.max (gainOn p c)) (x.levelOf p (p.peakGain.max (gainOn p c))) := rfl

lemma exitOf_eq (p : SuploPosition) (c : Candle) (peakP : PyFloat) :
    exitOf (posFromPosition (some p)) p.entry peakP c.high c.low x.retracePct =
      if 0 < peakP.max (gainOn p c) then
        ⟨peakP.max (gainOn p c), some (x.levelOf p (peakP.max (gainOn p c))),
          decide (Reaches p c (x.levelOf p (peakP.max (gainOn p c))))⟩
      else ⟨peakP.max (gainOn p c), none, false⟩ := by
  unfold exitOf gainOn levelOf Reaches posFromPosition PyFloat.max
  by_cases hside : p.side = "LONG"
  · simp only [hside, if_true, one_ne_zero, ne_eq, not_false_eq_true, true_and]
    split <;> split <;> simp_all
  · simp only [hside, if_false, ne_eq, true_and, Int.reduceNeg, Int.reduceEq, not_false_eq_true]
    split <;> split <;> simp_all

/-- No candle reaches a level that is no number. -/
lemma not_reaches_nan (p : SuploPosition) (c : Candle) : ¬ Reaches p c (x.levelOf p .nan) := by
  have hmul : PyFloat.nan * (1 - x.retracePct) = .nan := rfl
  have hadd : p.entry + .nan = .nan := by
    cases p.entry <;> rfl
  have hsub : p.entry - .nan = .nan := by
    cases p.entry <;> rfl
  unfold Reaches levelOf
  rw [hmul, hadd, hsub]
  split
  · simp
  · simp

lemma agrees_trail {r : Reference} {p : SuploPosition} (hpos : posFromPosition (some p) = r.position)
    (hentry : p.entry = r.entryPrice) (hpeak : SamePeak p.peakGain r.peakGain) (c : Candle) :
    Agrees (x.referenceExit r c) (x.trail p c) := by
  have hsame := hpeak.max (gainOn p c)
  unfold referenceExit
  rw [← hpos, ← hentry, exitOf_eq, trail_eq]
  by_cases hflat : p.peakGain.max (gainOn p c) ≤ 0
  · have hle : r.peakGain.max (gainOn p c) ≤ 0 := hsame.nonpos hflat
    rw [if_pos hflat, if_neg (not_pos_of_nonpos hle)]
    exact ⟨rfl, hle⟩
  · have heq := hsame.eq_of_not_nonpos hflat
    rw [if_neg hflat, ← heq]
    by_cases hpositive : 0 < p.peakGain.max (gainOn p c)
    · rw [if_pos hpositive]
      by_cases hreach : Reaches p c (x.levelOf p (p.peakGain.max (gainOn p c)))
      · rw [if_pos hreach]
        exact ⟨decide_eq_true hreach, rfl⟩
      · rw [if_neg hreach]
        exact ⟨decide_eq_false hreach, rfl⟩
    · -- the peak is no number, and neither is the level
      have hnan := eq_nan_of_neither hflat hpositive
      rw [hnan, if_neg (not_reaches_nan p c), if_neg (PyFloat.not_lt_nan 0)]
      exact ⟨rfl, rfl⟩

/-! ## A candle -/

lemma max_max_self (a g : PyFloat) : (a.max g).max g = a.max g := by
  by_cases hlt : a < g
  · have hg : a.max g = g := if_pos hlt
    rw [hg, PyFloat.max]
    split <;> rfl
  · have ha : a.max g = a := if_neg hlt
    rw [ha, ha]

/-- A peak that is stored as zero stays there on the same candle. -/
lemma trail_withPeak {p : SuploPosition} {c : Candle} (h : x.trail p c = .flat) :
    x.trail (withPeak 0 p) c = .flat := by
  have hle : p.peakGain.max (gainOn p c) ≤ 0 := by
    by_contra hne
    rw [trail_eq, if_neg hne] at h
    split at h <;> cases h
  have hgain : ¬ 0 < gainOn p c := by
    intro hlt
    unfold PyFloat.max at hle
    split at hle
    · exact not_pos_of_nonpos hle hlt
    · rename_i hnot
      exact hnot (lt_of_nonpos_of_pos hle hlt)
  have hzero : (withPeak 0 p).peakGain.max (gainOn (withPeak 0 p) c) = 0 := if_neg hgain
  rw [trail_eq, hzero]
  rfl

/-- A level that the candle has not hit is not hit by the peak that it leaves. -/
lemma trail_withTarget {p : SuploPosition} {c : Candle} {peak target : PyFloat}
    (h : x.trail p c = .trailing peak target) :
    x.trail (withTarget peak target p) c = .trailing peak target := by
  have hpeak : p.peakGain.max (gainOn p c) = peak := by
    rw [trail_eq] at h
    split at h
    · cases h
    · split at h
      · cases h
      · exact (Trail.trailing.inj h).1
  have hagain : (withTarget peak target p).peakGain.max (gainOn (withTarget peak target p) c) = peak := by
    rw [← hpeak]
    exact max_max_self _ _
  rw [trail_eq, hagain, ← h, trail_eq, hpeak]
  rfl

lemma matches_of_rows {r : Reference} {s : SuploState} {p : SuploPosition}
    (hrows : s.positions.rows = [p]) (htrend : s.lastTrendDir = r.lastTrendDir)
    (hpos : posFromPosition (some p) = r.position) (hentry : p.entry = r.entryPrice)
    (hpeak : SamePeak p.peakGain r.peakGain) : Matches r s := by
  have hexisting : existingPosition s = some p := by
    rw [existingPosition, hrows]
    rfl
  refine ⟨by rw [hrows]; exact le_rfl, htrend, by rw [hexisting, hpos], fun q hq => ?_⟩
  rw [hexisting, Option.some_inj] at hq
  rw [← hq]
  exact ⟨hentry, hpeak⟩

lemma matches_of_cash {r : Reference} {s : SuploState} (hrows : s.positions.rows = [])
    (htrend : s.lastTrendDir = r.lastTrendDir) (hpos : r.position = 0) : Matches r s := by
  have hexisting : existingPosition s = none := List.head?_eq_none_iff.mpr hrows
  refine ⟨by rw [hrows]; exact Nat.zero_le 1, htrend, by rw [hexisting, hpos]; rfl, fun q hq => ?_⟩
  rw [hexisting] at hq
  cases hq

/-- The position that is left on a candle, and which the candle does not hit. -/
structure Managed (x : SuploXau) (r : Reference) (c : Candle) (s : SuploState) : Prop where
  follows : Matches (exited r (x.referenceExit r c)) s
  unhit : ∀ p, existingPosition s = some p → ∀ target, x.trail p c ≠ .hit target

/-- The exit of the reference, as a trace. -/
def exitTrace (e : Exit) (t : ℤ) : List TraceEntry :=
  if e.hit then [.closed "TRAILING_TP" e.target t] else []

lemma managed_of_rows {r : Reference} {s : SuploState} {p : SuploPosition} {c : Candle}
    (hrows : s.positions.rows = [p]) (htrend : s.lastTrendDir = r.lastTrendDir)
    (hhit : (x.referenceExit r c).hit = false) (hpos : posFromPosition (some p) = r.position)
    (hentry : p.entry = r.entryPrice) (hpeak : SamePeak p.peakGain (x.referenceExit r c).peak)
    (hunhit : ∀ target, x.trail p c ≠ .hit target) : Managed x r c s := by
  have hexited : exited r (x.referenceExit r c) = { r with peakGain := (x.referenceExit r c).peak } := by
    simp [exited, hhit]
  refine ⟨?_, fun q hq => ?_⟩
  · rw [hexited]
    exact matches_of_rows hrows htrend hpos hentry hpeak
  · rw [existingPosition, hrows, List.head?_cons, Option.some_inj] at hq
    rw [← hq]
    exact hunhit

/-- `_manage_on_bar` does the first half of the step. -/
lemma managed_spec {r : Reference} {s : SuploState} (h : Matches r s) (c : Candle) :
    x.Traced (x.managed c s).1 (exitTrace (x.referenceExit r c) c.time) ∧
      Managed x r c (x.managed c s).2 := by
  unfold managed exitTrace
  cases hexisting : existingPosition s with
  | none =>
    have hposition : r.position = 0 := by
      rw [← h.position, hexisting]
      rfl
    have hexit := referenceExit_flat (x := x) hposition c
    have hexited : exited r (x.referenceExit r c) = r := by
      rw [hexit]
      rfl
    rw [hexit]
    refine ⟨traced_nil, by rw [hexited]; exact h, fun p hp => ?_⟩
    rw [hexisting] at hp
    cases hp
  | some p =>
    have hrows := rows_of_existing hexisting h.one
    have hpos : posFromPosition (some p) = r.position := by rw [← h.position, hexisting]
    obtain ⟨hentry, hpeak⟩ := h.held p hexisting
    have hagrees := agrees_trail (x := x) hpos hentry hpeak c
    dsimp only
    cases htrail : x.trail p c with
    | flat =>
      rw [htrail] at hagrees
      rw [hagrees.1]
      refine ⟨traced_nil, managed_of_rows (rows_modify_singleton (positionId_withPeak 0) hrows) h.trend
        hagrees.1 hpos hentry (.inr ⟨rfl, hagrees.2⟩) fun target => ?_⟩
      rw [trail_withPeak htrail]
      exact Trail.noConfusion
    | hit target =>
      rw [htrail] at hagrees
      rw [hagrees.1, hagrees.2]
      refine ⟨traced_close _ _ _ _, ?_, fun q hq => ?_⟩
      · have hcash : (exited r (x.referenceExit r c)).position = 0 := by simp [exited, hagrees.1]
        exact matches_of_cash (rows_erase_singleton hrows) h.trend hcash
      · rw [existingPosition, rows_erase_singleton hrows] at hq
        cases hq
    | trailing peak target =>
      rw [htrail] at hagrees
      rw [hagrees.1]
      have hheld := rows_modify_singleton (positionId_withTarget peak target) hrows
      have hunhit : ∀ level, x.trail (withTarget peak target p) c ≠ .hit level := by
        intro level
        rw [trail_withTarget htrail]
        exact Trail.noConfusion
      have hsame : SamePeak peak (x.referenceExit r c).peak := .inl hagrees.2.symm
      dsimp only
      split
      · have hemitted := rows_modify_singleton (positionId_withEmitted target) hheld
        exact ⟨traced_modify _ _,
          managed_of_rows hemitted h.trend hagrees.1 hpos hentry hsame hunhit⟩
      · exact ⟨traced_nil, managed_of_rows hheld h.trend hagrees.1 hpos hentry hsame hunhit⟩

/-! ## A flip -/

/-- What the second half of a step does. -/
def flipTrace (step : StateStep) (t : ℤ) : List TraceEntry :=
  (if step.flipExitHit then [.closed "TREND_FLIP" (some step.entryPrice) t] else []) ++
    if step.flipOpen then step.side.toList.map fun side => .opened side step.entryPrice t else []

lemma traceOf_referenceStep (r : Reference) (c : Candle) (direction t : ℤ) :
    traceOf (x.referenceStep r c direction) t =
      exitTrace (x.referenceExit r c) t ++ flipTrace (x.referenceStep r c direction) t := by
  have hhit : (x.referenceStep r c direction).trailingExitHit = (x.referenceExit r c).hit ∧
      (x.referenceStep r c direction).targetExitPrice = (x.referenceExit r c).target := by
    rw [referenceStep_eq]
    unfold flipOf
    split
    · exact ⟨rfl, rfl⟩
    · split <;> exact ⟨rfl, rfl⟩
  rw [traceOf, flipTrace, exitTrace, hhit.1, hhit.2, List.append_assoc]

lemma flipOf_still {r : Reference} {e : Exit} {close : PyFloat} {direction : ℤ}
    (h : direction = r.lastTrendDir) : flipOf r e close direction =
      ⟨r.position, r.entryPrice, r.peakGain, e.target, r.lastTrendDir, e.hit, false, false, none⟩ :=
  if_pos h

lemma flipOf_turned {r : Reference} {e : Exit} {close : PyFloat} {direction : ℤ}
    (hdir : IsDirection direction) (h : direction ≠ r.lastTrendDir) : flipOf r e close direction =
      ⟨if direction = downtrend then -1 else 1, close, 0, e.target, direction, e.hit, r.position ≠ 0, true,
        some (sideOf direction)⟩ := by
  have hzero : direction ≠ 0 := by
    rcases hdir with rfl | rfl <;> decide
  have hside : (if (if direction = downtrend then (-1 : ℤ) else 1) = -1 then "SHORT" else "LONG") =
      sideOf direction := by
    unfold sideOf
    split <;> rfl
  unfold flipOf
  rw [if_neg h, if_neg hzero, ← hside]

/-- The second look at the level finds nothing. -/
lemma not_hit_again {s : SuploState} {c : Candle}
    (h : ∀ p, existingPosition s = some p → ∀ target, x.trail p c ≠ .hit target) :
    (x.referenceExit (referenceOf s) c).hit = false := by
  cases hexisting : existingPosition s with
  | none =>
    have hposition : (referenceOf s).position = 0 := by
      rw [referenceOf, hexisting]
      rfl
    rw [referenceExit_flat hposition]
  | some p =>
    have hstate : referenceOf s = ⟨posFromPosition (some p), p.entry, p.peakGain, s.lastTrendDir⟩ := by
      rw [referenceOf, hexisting]
      rfl
    have hagrees : Agrees (x.referenceExit (referenceOf s) c) (x.trail p c) := by
      rw [hstate]
      exact agrees_trail rfl rfl (.inl rfl) c
    cases htrail : x.trail p c with
    | hit target => exact absurd htrail (h p hexisting target)
    | flat =>
      rw [htrail] at hagrees
      exact hagrees.1
    | trailing peak target =>
      rw [htrail] at hagrees
      exact hagrees.1

variable {digest : Logical → String} {uuid5 : String → String} {env : ℕ → DispatchEnv}

/-- The position of an entry. -/
def entered (x : SuploXau) (uuid5 : String → String) (side : String) (entry qty : PyFloat) (t : ℤ) :
    SuploPosition :=
  { positionId := uuid5 (x.positionName side t), side, entry, qty, entryCandleOpenMs := t
    lastTrendDir := if side = "LONG" then uptrend else downtrend }

lemma ends_openIfAllowed (henv : Acknowledges env) {s : SuploState} {side : String} {entry qty : PyFloat}
    {t : ℤ} (hrows : s.positions.rows = []) (hqty : x.positionQty entry = .ok qty)
    (hsize : ¬ qty < .fin (1 / 1000)) :
    Ends (x.openIfAllowed digest uuid5 env side entry t) s ()
      [x.openCall (x.entered uuid5 side entry qty t)]
      { s with positions := s.positions.insertOrIgnore (x.entered uuid5 side entry qty t) } := by
  have hcash : existingPosition s = none := List.head?_eq_none_iff.mpr hrows
  refine Ends.get_bind ?_
  rw [hcash, hqty]
  simp only [Option.isSome_none, Bool.false_eq_true, if_false]
  refine Acts.ofExcept_bind (fun q hq => ?_) fun e he => by cases he
  cases hq
  rw [if_neg hsize]
  exact (Ends.emit henv fun _ => rfl).bind Ends.modify

lemma posFromPosition_sideOf {p : SuploPosition} {direction : ℤ} (h : p.side = sideOf direction) :
    posFromPosition (some p) = if direction = downtrend then -1 else 1 := by
  unfold posFromPosition
  dsimp only
  rw [h, sideOf]
  split <;> rfl

variable (digest uuid5) in
/-- `_evaluate_entries` does the second half of the step. -/
lemma acts_entries (henv : Acknowledges env) {r : Reference} {s : SuploState} {c : Candle}
    {direction : ℤ} (hm : Managed x r c s) (hdir : IsDirection direction)
    (hqty : direction ≠ r.lastTrendDir →
      ∃ qty, x.positionQty c.close = .ok qty ∧ ¬ qty < .fin (1 / 1000)) :
    Acts (x.evaluateEntries digest uuid5 env c direction) s fun _ cs s' =>
      x.Traced cs (flipTrace (x.referenceStep r c direction) c.time) ∧
        Matches (keptBy (x.referenceStep r c direction)) s' := by
  have htrend : s.lastTrendDir = r.lastTrendDir := hm.follows.trend
  have hunhit := not_hit_again (x := x) (c := c) hm.unhit
  refine Acts.get_bind (Acts.modify_bind ?_)
  rw [entryStep_lastTrendDir]
  by_cases hturn : direction = r.lastTrendDir
  · have hstep : x.referenceStep r c direction = _ :=
      (referenceStep_eq r c direction).trans (flipOf_still hturn)
    have hentry : x.entryStep s c direction = _ :=
      ((entryStep_eq s c direction).trans (referenceStep_eq _ c direction)).trans
        (flipOf_still (hturn.trans htrend.symm))
    have hstate : { s with lastTrendDir := direction } = s := by
      rw [hturn, ← htrend]
    have hdone : x.Traced [] (flipTrace (x.referenceStep r c direction) c.time) ∧
        Matches (keptBy (x.referenceStep r c direction)) s := by
      rw [hstep]
      exact ⟨traced_nil, hm.follows⟩
    rw [hstate, hentry, hunhit]
    cases existingPosition s with
    | none => exact Acts.pure hdone
    | some p => exact Acts.pure hdone
  · obtain ⟨qty, hok, hsize⟩ := hqty hturn
    have hstep : x.referenceStep r c direction = _ :=
      (referenceStep_eq r c direction).trans (flipOf_turned hdir hturn)
    have hentry : x.entryStep s c direction = _ :=
      ((entryStep_eq s c direction).trans (referenceStep_eq _ c direction)).trans
        (flipOf_turned hdir fun hd => hturn (hd.trans htrend))
    let turned : SuploState := { s with lastTrendDir := direction }
    let new := x.entered uuid5 (sideOf direction) c.close qty c.time
    have hkept : ∀ {s' : SuploState}, s'.positions.rows = [new] → s'.lastTrendDir = direction →
        Matches (keptBy (x.referenceStep r c direction)) s' := by
      intro s' hrows hdirection
      rw [hstep]
      exact matches_of_rows hrows hdirection (posFromPosition_sideOf rfl) rfl (.inl rfl)
    have hopened : x.Traced [x.openCall new] [.opened (sideOf direction) c.close c.time] := traced_open new
    cases hexisting : existingPosition s with
    | none =>
      have hrows := rows_of_none hexisting
      have hflat : (exited r (x.referenceExit r c)).position = 0 := by
        rw [← hm.follows.position, hexisting]
        rfl
      have htrace : flipTrace (x.referenceStep r c direction) c.time =
          [.opened (sideOf direction) c.close c.time] := by
        rw [hstep, flipTrace, hflat]
        rfl
      rw [hentry]
      have hends : Ends (x.openIfAllowed digest uuid5 env (sideOf direction) c.close c.time) turned () _ _ :=
        ends_openIfAllowed henv hrows hok hsize
      refine hends.mono ?_
      rintro _ cs s' ⟨-, rfl, rfl⟩
      rw [htrace]
      exact ⟨hopened, hkept (rows_insertOrIgnore_empty hrows _) rfl⟩
    | some p =>
      have hrows := rows_of_existing hexisting hm.follows.one
      have hheld : (exited r (x.referenceExit r c)).position ≠ 0 := by
        rw [← hm.follows.position, hexisting]
        exact posFromPosition_ne_zero p
      have hheldHere : (exited (referenceOf s) (x.referenceExit (referenceOf s) c)).position ≠ 0 := by
        rw [exited, hunhit, referenceOf, hexisting]
        exact posFromPosition_ne_zero p
      have htrace : flipTrace (x.referenceStep r c direction) c.time =
          [.closed "TREND_FLIP" (some c.close) c.time, .opened (sideOf direction) c.close c.time] := by
        rw [hstep, flipTrace, decide_eq_true hheld]
        rfl
      rw [hentry, hunhit, decide_eq_true hheldHere]
      let cash : SuploState := { turned with positions := s.positions.erase p.positionId }
      have hcash : cash.positions.rows = [] := rows_erase_singleton hrows
      have hclose : Ends (x.closePosition digest env p.positionId "TREND_FLIP" (some c.close) c.time) turned
          () [x.closeCall p.positionId "TREND_FLIP" (some c.close) c.time] cash :=
        ends_closePosition henv _ _ _ _
      have hends := hclose.bind (k := fun _ =>
        x.openIfAllowed digest uuid5 env (sideOf direction) c.close c.time)
        (ends_openIfAllowed henv hcash hok hsize)
      refine hends.mono ?_
      rintro _ cs s' ⟨-, rfl, rfl⟩
      rw [htrace]
      exact ⟨(traced_close _ _ _ _).append hopened, hkept (rows_insertOrIgnore_empty hcash _) rfl⟩

/-! ## A scan -/

variable {candles : List Candle} {c : Candle} {direction : ℤ}

lemma scanned_some (h : x.scanned candles = some (c, direction)) :
    ¬ (x.series { candles }).length < x.minBars ∧ (x.series { candles }).getLast? = some c ∧
      direction = x.newestDirection candles := by
  unfold scanned at h
  split at h
  · cases h
  · rename_i hlong
    obtain ⟨c', hc', heq⟩ := Option.map_eq_some_iff.mp h
    cases heq
    exact ⟨hlong, hc', rfl⟩

lemma getLast?_series : (x.series { candles }).getLast?.map Candle.time = x.newestOpen candles := by
  rw [series, List.getLast?_map, Option.map_map]
  rfl

lemma newestOpen_scanned (h : x.scanned candles = some (c, direction)) :
    x.newestOpen candles = some c.time := by
  rw [← getLast?_series, (scanned_some h).2.1, Option.map_some]

lemma isDirection_scanned (h : x.scanned candles = some (c, direction)) : IsDirection direction := by
  obtain ⟨-, hlast, rfl⟩ := scanned_some h
  refine isDirection_last _ _ fun hnil => ?_
  rw [hnil] at hlast
  cases hlast

/-- The scan works on the candle that has arrived. -/
lemma scanCandle_some (h : x.scanned candles = some (c, direction)) {s : SuploState}
    (hpending : s.pending15mOpen = some c.time) : x.scanCandle { candles } s = some c := by
  obtain ⟨hlong, hlast, -⟩ := scanned_some h
  rw [scanCandle, if_neg hlong, hlast, hpending, Option.filter_some]
  simp

lemma scanCandle_none (h : x.scanned candles = none) (s : SuploState) :
    x.scanCandle { candles } s = none := by
  unfold scanned at h
  unfold scanCandle
  split
  · rfl
  · rename_i hlong
    rw [if_neg hlong, Option.map_eq_none_iff] at h
    rw [h]
    rfl

variable (digest uuid5) in
/-- A scan of the strategy does a step of the reference. -/
lemma acts_scanned (henv : Acknowledges env) {r : Reference} {s : SuploState} (h : Matches r s)
    (hstarted : s.last15mOpen ≠ none) (hscanned : x.scanned candles = some (c, direction))
    (hpending : s.pending15mOpen = some c.time) (htime : x.isTradeTime c.time = true)
    (hqty : direction ≠ r.lastTrendDir →
      ∃ qty, x.positionQty c.close = .ok qty ∧ ¬ qty < .fin (1 / 1000)) :
    Acts (x.scan digest uuid5 env { candles }) s fun _ cs s' =>
      (x.Traced cs (traceOf (x.referenceStep r c direction) c.time) ∧
        Matches (keptBy (x.referenceStep r c direction)) s') ∧ s'.last15mOpen = some c.time := by
  let seen : SuploState := { s with last15mOpen := some c.time, pending15mOpen := none }
  have hseen : Matches r seen := ⟨h.one, h.trend, h.position, h.held⟩
  obtain ⟨htraced, hmanaged⟩ := managed_spec (x := x) hseen c
  obtain ⟨-, -, hdir⟩ := scanned_some hscanned
  have hentries := (acts_entries digest uuid5 henv hmanaged
    (isDirection_scanned hscanned) hqty).keeps (f := SuploState.last15mOpen) fun w =>
      congrArg (fun m => m.2.1) (memory_evaluateEntries c direction w)
  refine Acts.get_bind ?_
  rw [scanCandle_some hscanned hpending]
  dsimp only
  rw [if_neg hstarted]
  refine Acts.modify_bind ((ends_manageOnBar henv c).then_acts ?_)
  rw [if_pos ⟨rfl, htime⟩]
  rw [hdir] at hentries ⊢
  refine hentries.mono fun _ cs s' hs' => ⟨⟨?_, hs'.1.2⟩, ?_⟩
  · rw [traceOf_referenceStep]
    exact htraced.append hs'.1.1
  · rw [hs'.2, last15mOpen_managed]

/-- A scan without enough candles does nothing. -/
lemma scan_short (h : x.scanned candles = none) (w : SuploState × Outbox) :
    ((x.scan digest uuid5 env { candles }).run w).2 = w := by
  rw [scan, Coro.run_bind_ok (run_getState w), scanCandle_none h]
  rfl

/-! ## A history -/

variable (x) in
/-- The newest candle is later than `t`. -/
def Later (t : ℤ) (candles : List Candle) : Prop := ∃ t', x.newestOpen candles = some t' ∧ t < t'

lemma arrived (t : ℤ) (ht : x.newestOpen candles = some t) {s : SuploState}
    (hlater : ∀ last, s.last15mOpen = some last → last < t) :
    x.shouldScanAfterEvent true (candles.getLast?.map Candle.time) s =
      { s with pending15mOpen := some t } := by
  obtain ⟨newest, hnewest, hopen⟩ := Option.map_eq_some_iff.mp ht
  rw [hnewest]
  unfold shouldScanAfterEvent
  dsimp only [Option.map_some]
  rw [hopen, if_neg]
  rw [Option.any_eq_true]
  rintro ⟨last, hlast, hle⟩
  have hlt := hlater last hlast
  rw [decide_eq_true_eq] at hle
  omega

lemma run_arrival (history : List (List Candle)) (w : SuploState × Outbox) :
    x.run digest uuid5 env w ((candles :: history).flatMap arrival) =
      x.run digest uuid5 env (x.step digest uuid5 env
        (x.step digest uuid5 env w (.kline true (candles.getLast?.map Candle.time)))
        (.scan { candles })) (history.flatMap arrival) := rfl

/-- Every quantity that the trace needs is there. -/
def Sized (x : SuploXau) (trace : List TraceEntry) : Prop :=
  ∀ side price t, .opened side price t ∈ trace →
    ∃ qty, x.positionQty price = .ok qty ∧ ¬ qty < .fin (1 / 1000)

lemma mem_traceOf_turned {r : Reference} (hdir : IsDirection direction)
    (h : direction ≠ r.lastTrendDir) (t : ℤ) :
    .opened (sideOf direction) c.close t ∈ traceOf (x.referenceStep r c direction) t := by
  have hstep : x.referenceStep r c direction = _ :=
    (referenceStep_eq r c direction).trans (flipOf_turned hdir h)
  rw [traceOf, hstep]
  simp

/-- From the candle at `t` on the strategy does what the reference does. -/
lemma traced_run (henv : Acknowledges env) {history : List (List Candle)}
    (htimes : ∀ candles ∈ history, ∀ c direction, x.scanned candles = some (c, direction) →
      x.isTradeTime c.time = true) :
    ∀ {r : Reference} {s : SuploState} {t : ℤ} (o : Outbox), Matches r s → s.last15mOpen = some t →
      (∀ candles ∈ history, x.Later t candles) →
      (history.Pairwise fun before after => ∃ t, x.newestOpen before = some t ∧ x.Later t after) →
      x.Sized (x.referenceTrace r (history.filterMap x.scanned)) →
      ∃ cs, calls (x.run digest uuid5 env (s, o) (history.flatMap arrival)).2.history =
          calls o.history ++ cs ∧
        x.Traced cs (x.referenceTrace r (history.filterMap x.scanned)) := by
  induction history with
  | nil => exact fun o _ _ _ _ _ => ⟨[], (List.append_nil _).symm, traced_nil⟩
  | cons candles history ih =>
    intro r s t o hmatches hlast hlater hpairwise hsized
    obtain ⟨t', ht', hlt⟩ := hlater candles List.mem_cons_self
    obtain ⟨hfirst, hrest⟩ := List.pairwise_cons.mp hpairwise
    have htimes' : ∀ candles ∈ history, ∀ c direction, x.scanned candles = some (c, direction) →
        x.isTradeTime c.time = true := fun candles hmem => htimes candles (List.mem_cons_of_mem _ hmem)
    have hlater' : ∀ candles ∈ history, x.Later t' candles := by
      intro after hafter
      obtain ⟨t'', ht'', hlate⟩ := hfirst after hafter
      rw [ht', Option.some_inj] at ht''
      rwa [ht'']
    let noticed : SuploState := { s with pending15mOpen := some t' }
    have hkline : x.step digest uuid5 env (s, o) (.kline true (candles.getLast?.map Candle.time)) =
        (noticed, o) := by
      change (x.shouldScanAfterEvent true _ s, o) = _
      rw [arrived t' ht']
      intro last hl
      rw [hlast, Option.some_inj] at hl
      rwa [← hl]
    have hnoticed : Matches r noticed :=
      ⟨hmatches.one, hmatches.trend, hmatches.position, hmatches.held⟩
    rw [run_arrival, hkline]
    cases hscanned : x.scanned candles with
    | none =>
      -- too few candles: the reference has no step either
      have hidle : x.step digest uuid5 env (noticed, o) (.scan { candles }) = (noticed, o) :=
        scan_short hscanned (noticed, o)
      rw [List.filterMap_cons_none hscanned] at hsized ⊢
      rw [hidle]
      exact ih htimes' o hnoticed hlast (fun after hafter => hlater after (List.mem_cons_of_mem _ hafter))
        hrest hsized
    | some scan =>
      obtain ⟨c, direction⟩ := scan
      have htime : t' = c.time := Option.some_inj.mp (ht'.symm.trans (newestOpen_scanned hscanned))
      rw [List.filterMap_cons_some hscanned] at hsized ⊢
      have hqty : direction ≠ r.lastTrendDir →
          ∃ qty, x.positionQty c.close = .ok qty ∧ ¬ qty < .fin (1 / 1000) := fun hne =>
        hsized _ _ _ (List.mem_append_left _
          (mem_traceOf_turned (isDirection_scanned hscanned) hne c.time))
      have hacts := acts_scanned digest uuid5 henv hnoticed
        (by rw [hlast]; exact Option.some_ne_none t) hscanned (congrArg some htime)
        (htimes candles List.mem_cons_self c direction hscanned) hqty
      obtain ⟨cs, hcalls, ⟨htraced, hkept⟩, hclock⟩ := hacts o
      obtain ⟨cs', hcalls', htraced'⟩ := ih htimes'
        (x.step digest uuid5 env (noticed, o) (.scan { candles })).2 hkept hclock
        (fun after hafter => htime ▸ hlater' after hafter) hrest
        fun side price t hmem => hsized side price t (List.mem_append_right _ hmem)
      refine ⟨cs ++ cs', ?_, htraced.append htraced'⟩
      rw [← List.append_assoc, ← hcalls]
      exact hcalls'

/-! ## The first scan -/

lemma keeps_kline (ready : Bool) (latest : Option ℤ) (s : SuploState) :
    (x.shouldScanAfterEvent ready latest s).positions = s.positions ∧
      (x.shouldScanAfterEvent ready latest s).last15mOpen = s.last15mOpen := by
  unfold shouldScanAfterEvent
  split
  · dsimp only
    split <;> exact ⟨rfl, rfl⟩
  · exact ⟨rfl, rfl⟩

variable (digest uuid5 env) in
/-- Too few candles leave the strategy as it is. -/
lemma run_short {early : List (List Candle)} (h : ∀ candles ∈ early, x.scanned candles = none) :
    ∀ (s : SuploState) (o : Outbox), ∃ s', s'.positions = s.positions ∧
      s'.last15mOpen = s.last15mOpen ∧
      x.run digest uuid5 env (s, o) (early.flatMap arrival) = (s', o) := by
  induction early with
  | nil => exact fun s o => ⟨s, rfl, rfl, rfl⟩
  | cons candles early ih =>
    intro s o
    let noticed := x.shouldScanAfterEvent true (candles.getLast?.map Candle.time) s
    obtain ⟨hpositions, hlast⟩ := keeps_kline (x := x) true (candles.getLast?.map Candle.time) s
    obtain ⟨s', hpositions', hlast', hrun⟩ :=
      ih (fun candles hmem => h candles (List.mem_cons_of_mem _ hmem)) noticed o
    have hscan : x.step digest uuid5 env (noticed, o) (.scan { candles }) = (noticed, o) :=
      scan_short (h candles List.mem_cons_self) (noticed, o)
    refine ⟨s', hpositions'.trans hpositions, hlast'.trans hlast, ?_⟩
    rw [run_arrival]
    exact (congrArg (fun w => x.run digest uuid5 env w _) hscan).trans hrun

lemma length_adopt (t : ℤ) (candles : List Candle) (s : SuploState) :
    (adopt t candles s).positions.rows.length = s.positions.rows.length := by
  unfold adopt
  split
  · exact List.length_map _
  · rfl

lemma last15mOpen_adopt (t : ℤ) (candles : List Candle) (s : SuploState) :
    (adopt t candles s).last15mOpen = some t := by
  unfold adopt
  split <;> rfl

variable (digest uuid5 env) in
/-- The first scan adopts the trend. -/
lemma run_first (hscanned : x.scanned candles = some (c, direction)) {s : SuploState}
    (hfresh : s.last15mOpen = none) (o : Outbox) :
    x.run digest uuid5 env (s, o) (arrival candles) =
      (adopt c.time (x.series { candles }) { s with pending15mOpen := some c.time }, o) := by
  let noticed : SuploState := { s with pending15mOpen := some c.time }
  have hkline : x.step digest uuid5 env (s, o) (.kline true (candles.getLast?.map Candle.time)) =
      (noticed, o) := by
    change (x.shouldScanAfterEvent true _ s, o) = _
    rw [arrived c.time (newestOpen_scanned hscanned)]
    intro last hlast
    rw [hfresh] at hlast
    cases hlast
  change x.step digest uuid5 env (x.step digest uuid5 env (s, o) _) (.scan { candles }) = _
  rw [hkline]
  change ((x.scan digest uuid5 env { candles }).run (noticed, o)).2 = _
  rw [scan, Coro.run_bind_ok (run_getState _), scanCandle_some hscanned rfl]
  dsimp only
  rw [if_pos hfresh]
  rfl

/-- The world that the first scan leaves, after windows without enough candles. -/
def firstScanned (x : SuploXau) (digest : Logical → String) (uuid5 : String → String)
    (env : ℕ → DispatchEnv) (w : SuploState × Outbox) (early : List (List Candle))
    (first : List Candle) : SuploState × Outbox :=
  x.run digest uuid5 env w ((early ++ [first]).flatMap arrival)

variable (digest uuid5 env) in
lemma firstScanned_eq {early : List (List Candle)} {first : List Candle}
    (hearly : ∀ candles ∈ early, x.scanned candles = none)
    (hscanned : x.scanned first = some (c, direction)) {s : SuploState} (hfresh : s.last15mOpen = none)
    (o : Outbox) : ∃ s', s'.positions.rows.length = s.positions.rows.length ∧
      s'.last15mOpen = some c.time ∧ x.firstScanned digest uuid5 env (s, o) early first = (s', o) := by
  obtain ⟨s', hpositions, hlast, hrun⟩ := run_short digest uuid5 env hearly s o
  let noticed : SuploState := { s' with pending15mOpen := some c.time }
  let adopted := adopt c.time (x.series { candles := first }) noticed
  refine ⟨adopted, ?_, last15mOpen_adopt _ _ _, ?_⟩
  · rw [length_adopt]
    exact congrArg (fun positions => positions.rows.length) hpositions
  · rw [firstScanned, List.flatMap_append, run, List.foldl_append]
    have hfirst := run_first digest uuid5 env hscanned (hlast.trans hfresh) o
    rw [List.flatMap_singleton, ← hfirst, ← hrun]
    rfl

lemma GapFree.later {first : List Candle} {rest : List (List Candle)} (h : x.GapFree (first :: rest)) :
    (first :: rest).Pairwise fun before after => ∃ t, x.newestOpen before = some t ∧ x.Later t after := by
  have htrans : Trans
      (fun before after : List Candle => ∃ t, x.newestOpen before = some t ∧ x.Later t after)
      (fun before after => ∃ t, x.newestOpen before = some t ∧ x.Later t after)
      (fun before after => ∃ t, x.newestOpen before = some t ∧ x.Later t after) := by
    constructor
    rintro a b d ⟨t, ht, t', ht', hlt⟩ ⟨t'', ht'', u, hu, hlt'⟩
    rw [ht', Option.some_inj] at ht''
    exact ⟨t, ht, u, hu, by omega⟩
  refine (List.IsChain.imp (fun before after h => ?_) h).pairwise
  obtain ⟨t, ht, ht'⟩ := h
  exact ⟨t, ht, t + m15Ms, ht', by unfold m15Ms; omega⟩

/-- On a gap-free history of which every candle is scanned, with entries allowed and quantities that are
large enough, the OPEN and CLOSE signals of the strategy are the trace of the reference, from the state
that the first scan has left. -/
theorem refines_reference (x : SuploXau) (digest : Logical → String) (uuid5 : String → String)
    (env : ℕ → DispatchEnv) (henv : Acknowledges env) (o : Outbox)
    (loaded : Table SuploPosition.positionId) (hone : loaded.rows.length ≤ 1)
    (early : List (List Candle)) (first : List Candle) (rest : List (List Candle))
    (hearly : ∀ candles ∈ early, x.scanned candles = none) (hfirst : x.scanned first ≠ none)
    (hgap : x.GapFree (first :: rest))
    (htimes : ∀ candles ∈ rest, ∀ c direction, x.scanned candles = some (c, direction) →
      x.isTradeTime c.time = true) :
    let w := x.firstScanned digest uuid5 env ({ positions := loaded }, o) early first
    let trace := x.referenceTrace (referenceOf w.1) (rest.filterMap x.scanned)
    x.Sized trace → x.Traced (sentSince w (x.run digest uuid5 env w (rest.flatMap arrival))) trace := by
  obtain ⟨⟨c, direction⟩, hscanned⟩ := Option.ne_none_iff_exists'.mp hfirst
  obtain ⟨s, hlength, hlast, hworld⟩ := firstScanned_eq digest uuid5 env hearly hscanned (s := { positions := loaded }) rfl o
  obtain ⟨hlater, hpairwise⟩ := List.pairwise_cons.mp hgap.later
  dsimp only
  rw [hworld]
  intro hsized
  have hmatches : Matches (referenceOf s) s := matches_referenceOf (hlength.trans_le hone)
  have hafter : ∀ candles ∈ rest, x.Later c.time candles := by
    intro after hmem
    obtain ⟨t, ht, hlate⟩ := hlater after hmem
    rw [newestOpen_scanned hscanned, Option.some_inj] at ht
    rwa [ht]
  obtain ⟨cs, hcalls, htraced⟩ := traced_run henv htimes o hmatches hlast hafter hpairwise hsized
  rw [sentSince_eq hcalls]
  exact htraced

/-- The rising candles, and a fall that takes the position out and turns the trend at once. -/
def risenAndFallen : List Candle := risingCandles ++ [⟨131, 131, 60, 65, 1700003600000⟩]

/-- What the cache holds at the scans after the first one. -/
def fallenHistory : List (List Candle) :=
  [risenAndFallen.take 2, risenAndFallen.take 3, risenAndFallen.take 4, risenAndFallen]

/-- The world after the first candle. -/
def firstRisen : SuploState × Outbox :=
  suplo.firstScanned typeDigest id quietEnv ({}, { dispatcher := {} }) [] (risenAndFallen.take 1)

/-- The last candle trails out of the long position and opens a short one. -/
def fallenTrace : List TraceEntry :=
  [.opened "LONG" 110 1700000900000, .closed "TRAILING_TP" (some (.fin (2599 / 20))) 1700003600000,
    .opened "SHORT" 65 1700003600000]

lemma sized_fallenTrace : suplo.Sized fallenTrace := by
  have hlong : suplo.positionQty 110 = .ok (.fin (90909 / 100)) := by decide +kernel
  have hshort : suplo.positionQty 65 = .ok (.fin (1538461 / 1000)) := by decide +kernel
  intro side price t hmem
  simp only [fallenTrace, List.mem_cons, TraceEntry.opened.injEq, reduceCtorEq, List.not_mem_nil,
    or_false, false_or] at hmem
  rcases hmem with ⟨-, rfl, -⟩ | ⟨-, rfl, -⟩
  · exact ⟨_, hlong, by decide +kernel⟩
  · exact ⟨_, hshort, by decide +kernel⟩

theorem refines_fallenTrace :
    suplo.Traced (sentSince firstRisen
      (suplo.run typeDigest id quietEnv firstRisen (fallenHistory.flatMap arrival))) fallenTrace := by
  have htrace : suplo.referenceTrace (referenceOf firstRisen.1) (fallenHistory.filterMap suplo.scanned) =
      fallenTrace := by decide +kernel
  have hrefines := refines_reference suplo typeDigest id quietEnv (fun _ _ => rfl) { dispatcher := {} }
    .empty (Nat.zero_le 1) [] (risenAndFallen.take 1) fallenHistory
    (fun _ hmem => absurd hmem List.not_mem_nil) (Option.some_ne_none _) (by
      simp only [GapFree, fallenHistory, List.isChain_cons_cons, List.isChain_singleton, and_true]
      exact ⟨⟨_, rfl, rfl⟩, ⟨_, rfl, rfl⟩, ⟨_, rfl, rfl⟩, ⟨_, rfl, rfl⟩⟩)
    (fun _ _ _ _ _ => rfl)
  exact htrace ▸ hrefines (htrace ▸ sized_fallenTrace)

end SuploXau

end PaperTrade.Runner
