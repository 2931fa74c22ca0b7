import PaperTrade.Runtime.Float

/-!
# Stops of hyper-turbo-v2

`_manage_positions` takes the 1m candles of a symbol that come after `last_managed_ms`, makes one candle
of them (the open of the first, the highest high, the lowest low) and tries the two stops of the
position on it: first the trailing stop, then the catastrophe stop. A stop that is reached is filled at
its price, or at the open when the candle opens beyond it.

Every symbol is treated on its own, so what follows is about the position of one symbol and the 1m
candles of that symbol. How many candles one call finds depends on when it runs; the decisions of one
call and of a call after each candle are compared in `batching_iff`.
-/

namespace PaperTrade.Alphas.HyperTurbo

open PaperTrade.Runtime

inductive Side
  | long
  | short
deriving DecidableEq

structure Candle where
  time : ℤ
  opening : PyFloat
  high : PyFloat
  low : PyFloat

/-- What the manage pass reads of a position. -/
structure Position where
  side : Side
  entry : PyFloat
  sl : PyFloat
  catastrophe : PyFloat
  lastManagedMs : ℤ
  openedAtMs : ℤ

/-- `SLIPPAGE_PCT` and `FUNDING_RATE_8H`. -/
structure Settings where
  slippagePct : PyFloat := .fin (6 / 10000)
  fundingRate8h : PyFloat := .fin (1 / 10000)

inductive Reason
  | atrTrailingStop
  | catastropheStop
deriving DecidableEq

/-- One candle for all that a call finds. -/
structure Snapshot where
  opening : PyFloat
  high : PyFloat
  low : PyFloat
  latestMs : ℤ

/-- A close, with the prices of its metadata. -/
structure Exit where
  reason : Reason
  stopPrice : PyFloat
  triggerPrice : PyFloat
  fillPrice : PyFloat
  exitPrice : PyFloat
  candleHigh : PyFloat
  candleLow : PyFloat

/-- Whether a price range reaches a stop. -/
def Reaches (side : Side) (stop low high : PyFloat) : Prop :=
  (side = .long ∧ low ≤ stop) ∨ (side = .short ∧ high ≥ stop)

instance (side : Side) (stop low high : PyFloat) : Decidable (Reaches side stop low high) := by
  unfold Reaches
  have : Decidable (high ≥ stop) := inferInstanceAs (Decidable (stop ≤ high))
  infer_instance

/-- `_hit_reason`. -/
def hitReason (pos : Position) (low high : PyFloat) : Option (Reason × PyFloat) :=
  if Reaches pos.side pos.sl low high then some (.atrTrailingStop, pos.sl)
  else if Reaches pos.side pos.catastrophe low high then some (.catastropheStop, pos.catastrophe)
  else none

/-- `raw_fill`. -/
def rawFill (side : Side) (stop opening : PyFloat) : PyFloat :=
  match side with
  | .long => if opening ≤ stop then opening else stop
  | .short => if stop ≤ opening then opening else stop

/-- `_cost_adjusted_exit`. -/
def costAdjustedExit (settings : Settings) (pos : Position) (price : PyFloat) (closeTimeMs : ℤ) :
    PyFloat :=
  let heldMs : ℤ := max 0 (closeTimeMs - pos.openedAtMs)
  let fundingPerUnit := pos.entry * settings.fundingRate8h * .fin (heldMs / (8 * 3600000))
  match pos.side with
  | .long => price * (1 - settings.slippagePct) - fundingPerUnit
  | .short => price * (1 + settings.slippagePct) + fundingPerUnit

/-- The candles of one call as one. -/
def snapshotOf (first : Candle) (rest : List Candle) : Snapshot where
  opening := first.opening
  high := rest.foldl (fun x c => x.max c.high) first.high
  low := rest.foldl (fun x c => x.min c.low) first.low
  latestMs := (rest.getLast?.getD first).time

/-- The close that a snapshot leads to. -/
def exitOf (settings : Settings) (pos : Position) (snap : Snapshot) : Option Exit :=
  (hitReason pos snap.low snap.high).map fun hit =>
    let fill := rawFill pos.side hit.2 snap.opening
    { reason := hit.1
      stopPrice := hit.2
      triggerPrice := match pos.side with
        | .long => snap.low
        | .short => snap.high
      fillPrice := fill
      exitPrice := costAdjustedExit settings pos fill (snap.latestMs + 60000)
      candleHigh := snap.high
      candleLow := snap.low }

/-- `_manage_positions` for the position of one symbol. -/
def managePosition (settings : Settings) (pos : Position) (data : List Candle) :
    Position × Option Exit :=
  match data.filter fun c => pos.lastManagedMs < c.time with
  | [] => (pos, none)
  | first :: rest =>
    let snap := snapshotOf first rest
    ({ pos with lastManagedMs := snap.latestMs }, exitOf settings pos snap)

/-- A call after each of the candles `cs` has joined the data, until one closes the position. -/
def manageEach (settings : Settings) (pos : Position) (data : List Candle) :
    List Candle → Option Exit
  | [] => none
  | c :: cs =>
    match managePosition settings pos (data ++ [c]) with
    | (_, some exit) => some exit
    | (pos', none) => manageEach settings pos' (data ++ [c]) cs

/-- What a close decides: its reason and its fill before the costs. -/
def decision (exit : Option Exit) : Option (Reason × PyFloat) :=
  exit.map fun e => (e.reason, e.fillPrice)

/-- A candle of finite prices with the open between its extremes. -/
def WellFormed (c : Candle) : Prop :=
  ∃ l o h : ℚ, c.low = .fin l ∧ c.opening = .fin o ∧ c.high = .fin h ∧ l ≤ o ∧ o ≤ h

/-- A candle reaches one of the stops. -/
def Hit (pos : Position) (c : Candle) : Prop :=
  Reaches pos.side pos.sl c.low c.high ∨ Reaches pos.side pos.catastrophe c.low c.high

instance (pos : Position) (c : Candle) : Decidable (Hit pos c) := by
  unfold Hit
  infer_instance

/-- The stop that a candle is filled at. -/
def stopAt (pos : Position) (c : Candle) : PyFloat :=
  if Reaches pos.side pos.sl c.low c.high then pos.sl else pos.catastrophe

/-- A candle opens beyond a stop. -/
def GapsThrough (side : Side) (stop : PyFloat) (c : Candle) : Prop :=
  (side = .long ∧ c.opening < stop) ∨ (side = .short ∧ stop < c.opening)

instance (side : Side) (stop : PyFloat) (c : Candle) : Decidable (GapsThrough side stop c) := by
  unfold GapsThrough
  infer_instance

/-- The first candle that reaches a stop reaches the trailing stop unless none of the candles does, and
it is the first of all unless it does not open beyond its stop. -/
def BatchesAlike (pos : Position) (cs : List Candle) : Prop :=
  ∀ before c after, cs = before ++ c :: after → (∀ d ∈ before, ¬ Hit pos d) → Hit pos c →
    (Reaches pos.side pos.sl c.low c.high ∨ ∀ d ∈ cs, ¬ Reaches pos.side pos.sl d.low d.high) ∧
      (before = [] ∨ ¬ GapsThrough pos.side (stopAt pos c) c)

/-! ## Prices and stops -/

lemma min_le_iff {a b : ℚ} {x : PyFloat} :
    (PyFloat.fin a).min (.fin b) ≤ x ↔ PyFloat.fin a ≤ x ∨ PyFloat.fin b ≤ x := by
  rw [PyFloat.min_fin]
  cases x with
  | nan => simp
  | inf s =>
    constructor
    · exact fun h => .inl h
    · exact fun h => h.elim id id
  | fin q =>
    rw [PyFloat.fin_le_fin, PyFloat.fin_le_fin, PyFloat.fin_le_fin]
    exact inf_le_iff

lemma le_max_iff {a b : ℚ} {x : PyFloat} :
    x ≤ (PyFloat.fin a).max (.fin b) ↔ x ≤ PyFloat.fin a ∨ x ≤ PyFloat.fin b := by
  rw [PyFloat.max_fin]
  cases x with
  | nan => simp
  | inf s =>
    constructor
    · exact fun h => .inl h
    · exact fun h => h.elim id id
  | fin q =>
    rw [PyFloat.fin_le_fin, PyFloat.fin_le_fin, PyFloat.fin_le_fin]
    exact le_sup_iff

lemma foldl_min {cs : List Candle} (h : ∀ c ∈ cs, WellFormed c) (a : ℚ) (x : PyFloat) :
    cs.foldl (fun x c => x.min c.low) (.fin a) ≤ x ↔ PyFloat.fin a ≤ x ∨ ∃ c ∈ cs, c.low ≤ x := by
  induction cs generalizing a with
  | nil => simp
  | cons c cs ih =>
    obtain ⟨l, o, t, hlow, -, -, -, -⟩ := h c List.mem_cons_self
    have hmin : (PyFloat.fin a).min c.low = .fin (Min.min a l) := by rw [hlow, PyFloat.min_fin]
    rw [List.foldl_cons, hmin, ih fun d hd => h d (List.mem_cons_of_mem _ hd), ← PyFloat.min_fin,
      min_le_iff, ← hlow]
    simp only [List.mem_cons, exists_eq_or_imp, or_assoc]

lemma foldl_max {cs : List Candle} (h : ∀ c ∈ cs, WellFormed c) (a : ℚ) (x : PyFloat) :
    x ≤ cs.foldl (fun x c => x.max c.high) (.fin a) ↔ x ≤ PyFloat.fin a ∨ ∃ c ∈ cs, x ≤ c.high := by
  induction cs generalizing a with
  | nil => simp
  | cons c cs ih =>
    obtain ⟨l, o, t, -, -, hhigh, -, -⟩ := h c List.mem_cons_self
    have hmax : (PyFloat.fin a).max c.high = .fin (Max.max a t) := by rw [hhigh, PyFloat.max_fin]
    rw [List.foldl_cons, hmax, ih fun d hd => h d (List.mem_cons_of_mem _ hd), ← PyFloat.max_fin,
      le_max_iff, ← hhigh]
    simp only [List.mem_cons, exists_eq_or_imp, or_assoc]

/-- The candle that stands for all reaches a stop when one of them does. -/
lemma reaches_snapshot {first : Candle} {rest : List Candle}
    (h : ∀ c ∈ first :: rest, WellFormed c) (side : Side) (stop : PyFloat) :
    Reaches side stop (snapshotOf first rest).low (snapshotOf first rest).high ↔
      ∃ c ∈ first :: rest, Reaches side stop c.low c.high := by
  obtain ⟨l, o, t, hlow, -, hhigh, -, -⟩ := h first List.mem_cons_self
  have hrest : ∀ c ∈ rest, WellFormed c := fun c hc => h c (List.mem_cons_of_mem _ hc)
  have hmin := foldl_min hrest l stop
  have hmax := foldl_max hrest t stop
  rw [← hlow] at hmin
  rw [← hhigh] at hmax
  cases side with
  | long => simpa [Reaches, snapshotOf] using hmin
  | short => simpa [Reaches, snapshotOf] using hmax

/-- A candle that opens beyond a stop reaches it, so one that does not reach it is filled at the stop. -/
lemma rawFill_of_not_reaches {c : Candle} (hc : WellFormed c) {side : Side} {stop : PyFloat}
    (h : ¬ Reaches side stop c.low c.high) : rawFill side stop c.opening = stop := by
  obtain ⟨l, o, t, hlow, hopen, hhigh, hlo, hot⟩ := hc
  cases side with
  | long =>
    refine if_neg fun hle => h (.inl ⟨rfl, ?_⟩)
    rw [hopen] at hle
    rw [hlow]
    exact PyFloat.le_trans ((PyFloat.fin_le_fin l o).mpr hlo) hle
  | short =>
    refine if_neg fun hle => h (.inr ⟨rfl, ?_⟩)
    rw [hopen] at hle
    show stop ≤ c.high
    rw [hhigh]
    exact PyFloat.le_trans hle ((PyFloat.fin_le_fin o t).mpr hot)

lemma fin_eq_of_le {q : ℚ} {x : PyFloat} (hle : PyFloat.fin q ≤ x) (hlt : ¬ PyFloat.fin q < x) :
    PyFloat.fin q = x := by
  cases x with
  | nan => exact absurd hle (PyFloat.not_le_nan _)
  | inf s =>
    cases s with
    | false => exact absurd rfl hlt
    | true => exact absurd hle Bool.false_ne_true
  | fin p =>
    rw [PyFloat.fin_le_fin] at hle
    rw [PyFloat.fin_lt_fin] at hlt
    rw [le_antisymm hle (not_lt.mp hlt)]

lemma eq_fin_of_le {q : ℚ} {x : PyFloat} (hle : x ≤ PyFloat.fin q) (hlt : ¬ x < PyFloat.fin q) :
    PyFloat.fin q = x := by
  cases x with
  | nan => exact absurd hle (PyFloat.not_nan_le _)
  | inf s =>
    cases s with
    | false => exact absurd hle Bool.false_ne_true
    | true => exact absurd rfl hlt
  | fin p =>
    rw [PyFloat.fin_le_fin] at hle
    rw [PyFloat.fin_lt_fin] at hlt
    rw [le_antisymm hle (not_lt.mp hlt)]

lemma lt_ne {x y : PyFloat} (h : x < y) : x ≠ y := by
  rintro rfl
  change PyFloat.blt x x = true at h
  rcases x with _ | (_ | _) | q <;> simp [PyFloat.blt] at h

lemma le_of_lt {x y : PyFloat} (h : x < y) : x ≤ y := by
  change PyFloat.blt x y = true at h
  change PyFloat.ble x y = true
  rcases x with _ | (_ | _) | p <;> rcases y with _ | (_ | _) | q <;> simp_all [PyFloat.blt, PyFloat.ble]
  exact h.le

/-- A fill is the stop's price unless the candle opens beyond the stop. -/
lemma rawFill_eq_iff {c : Candle} (hc : WellFormed c) (side : Side) (stop : PyFloat) :
    rawFill side stop c.opening = stop ↔ ¬ GapsThrough side stop c := by
  obtain ⟨l, o, t, -, hopen, -, -, -⟩ := hc
  have hirrefl : ¬ stop < stop := fun h => lt_ne h rfl
  unfold rawFill GapsThrough
  rw [hopen]
  cases side with
  | long =>
    by_cases hle : PyFloat.fin o ≤ stop
    · by_cases hlt : PyFloat.fin o < stop
      · simp [hle, hlt, lt_ne hlt]
      · simp [fin_eq_of_le hle hlt, hirrefl]
    · have hlt : ¬ PyFloat.fin o < stop := fun h => hle (le_of_lt h)
      simp [hle, hlt]
  | short =>
    by_cases hle : stop ≤ PyFloat.fin o
    · by_cases hlt : stop < PyFloat.fin o
      · simp [hle, hlt, (lt_ne hlt).symm]
      · simp [eq_fin_of_le hle hlt, hirrefl]
    · have hlt : ¬ stop < PyFloat.fin o := fun h => hle (le_of_lt h)
      simp [hle, hlt]

/-! ## One call and many -/

section Calls

variable {settings : Settings} {pos : Position}

variable (settings) in
/-- The candles that a call finds in the data. -/
lemma managePosition_append {data cs : List Candle} (hdata : ∀ c ∈ data, c.time ≤ pos.lastManagedMs)
    {first : Candle} {rest : List Candle} (hcs : cs = first :: rest)
    (hnew : ∀ c ∈ cs, pos.lastManagedMs < c.time) :
    managePosition settings pos (data ++ cs) =
      ({ pos with lastManagedMs := (snapshotOf first rest).latestMs },
        exitOf settings pos (snapshotOf first rest)) := by
  have hold : (data.filter fun c => pos.lastManagedMs < c.time) = [] := by
    refine List.filter_eq_nil_iff.mpr fun c hc hlate => ?_
    exact absurd (of_decide_eq_true hlate) (not_lt.mpr (hdata c hc))
  have hall : (cs.filter fun c => pos.lastManagedMs < c.time) = cs :=
    List.filter_eq_self.mpr fun c hc => decide_eq_true (hnew c hc)
  unfold managePosition
  rw [List.filter_append, hold, hall, List.nil_append, hcs]

/-- The decision on a snapshot. -/
lemma decision_exitOf (snap : Snapshot) : decision (exitOf settings pos snap) =
    (hitReason pos snap.low snap.high).map fun hit => (hit.1, rawFill pos.side hit.2 snap.opening) := by
  unfold decision exitOf
  rw [Option.map_map]
  rfl

/-- The decision on one candle. -/
def decisionAt (pos : Position) (c : Candle) : Reason × PyFloat :=
  (if Reaches pos.side pos.sl c.low c.high then .atrTrailingStop else .catastropheStop,
    rawFill pos.side (stopAt pos c) c.opening)

variable (settings) in
lemma decision_of_hit {c : Candle} (h : Hit pos c) :
    decision (exitOf settings pos (snapshotOf c [])) = some (decisionAt pos c) := by
  rw [decision_exitOf]
  show (hitReason pos c.low c.high).map _ = _
  unfold hitReason decisionAt stopAt
  by_cases hsl : Reaches pos.side pos.sl c.low c.high
  · rw [if_pos hsl, if_pos hsl, if_pos hsl]
    rfl
  · rw [if_neg hsl, if_neg hsl, if_neg hsl, if_pos (h.resolve_left hsl)]
    rfl

lemma exit_of_not_hit {c : Candle} (h : ¬ Hit pos c) :
    exitOf settings pos (snapshotOf c []) = none := by
  unfold exitOf
  show (hitReason pos c.low c.high).map _ = _
  unfold hitReason
  rw [if_neg fun hsl => h (.inl hsl), if_neg fun hcat => h (.inr hcat)]
  rfl

/-- Calls after each candle close on the first candle that reaches a stop. -/
lemma manageEach_append {data before : List Candle} {c : Candle} {after : List Candle}
    (hdata : ∀ d ∈ data, d.time ≤ pos.lastManagedMs)
    (hsorted : (before ++ c :: after).Pairwise fun d e => d.time < e.time)
    (hnew : ∀ d ∈ before ++ c :: after, pos.lastManagedMs < d.time)
    (hbefore : ∀ d ∈ before, ¬ Hit pos d) (hc : Hit pos c) :
    decision (manageEach settings pos data (before ++ c :: after)) = some (decisionAt pos c) := by
  induction before generalizing pos data with
  | nil =>
    have hnewc := hnew c (List.mem_append_right _ List.mem_cons_self)
    have hcall := managePosition_append settings hdata (rfl : [c] = [c])
      fun d hd => (List.mem_singleton.mp hd) ▸ hnewc
    have hdecision := decision_of_hit settings hc
    rw [List.nil_append, manageEach, hcall]
    cases hexit : exitOf settings pos (snapshotOf c []) with
    | none =>
      rw [hexit] at hdecision
      cases hdecision
    | some exit =>
      rw [hexit] at hdecision
      exact hdecision
  | cons d before ih =>
    have hnewd := hnew d List.mem_cons_self
    have hcall := managePosition_append settings hdata (rfl : [d] = [d])
      fun e he => (List.mem_singleton.mp he) ▸ hnewd
    obtain ⟨hfirst, hrest⟩ := List.pairwise_cons.mp hsorted
    rw [List.cons_append, manageEach, hcall, exit_of_not_hit (hbefore d List.mem_cons_self)]
    refine @ih { pos with lastManagedMs := d.time } (data ++ [d]) ?_ hrest hfirst
      (fun e he => hbefore e (List.mem_cons_of_mem _ he)) hc
    intro e he
    rcases List.mem_append.mp he with hold | hlast
    · exact (hdata e hold).trans hnewd.le
    · rw [List.mem_singleton.mp hlast]

/-- Calls after each candle close nothing when no candle reaches a stop. -/
lemma manageEach_none {data cs : List Candle} (hdata : ∀ d ∈ data, d.time ≤ pos.lastManagedMs)
    (hsorted : cs.Pairwise fun d e => d.time < e.time) (hnew : ∀ d ∈ cs, pos.lastManagedMs < d.time)
    (hnone : ∀ d ∈ cs, ¬ Hit pos d) : manageEach settings pos data cs = none := by
  induction cs generalizing pos data with
  | nil => rfl
  | cons d cs ih =>
    have hnewd := hnew d List.mem_cons_self
    have hcall := managePosition_append settings hdata (rfl : [d] = [d])
      fun e he => (List.mem_singleton.mp he) ▸ hnewd
    obtain ⟨hfirst, hrest⟩ := List.pairwise_cons.mp hsorted
    rw [manageEach, hcall, exit_of_not_hit (hnone d List.mem_cons_self)]
    refine @ih { pos with lastManagedMs := d.time } (data ++ [d]) ?_ hrest hfirst
      fun e he => hnone e (List.mem_cons_of_mem _ he)
    intro e he
    rcases List.mem_append.mp he with hold | hlast
    · exact (hdata e hold).trans hnewd.le
    · rw [List.mem_singleton.mp hlast]

/-- The one call decides as the first candle that reaches a stop does, exactly under the condition. -/
lemma batch_iff {before : List Candle} {c : Candle} {after : List Candle} {first : Candle}
    {rest : List Candle} (hcs : before ++ c :: after = first :: rest)
    (hformed : ∀ d ∈ before ++ c :: after, WellFormed d) (hbefore : ∀ d ∈ before, ¬ Hit pos d)
    (hc : Hit pos c) :
    decision (exitOf settings pos (snapshotOf first rest)) = some (decisionAt pos c) ↔
      (Reaches pos.side pos.sl c.low c.high ∨
          ∀ d ∈ before ++ c :: after, ¬ Reaches pos.side pos.sl d.low d.high) ∧
        (before = [] ∨ ¬ GapsThrough pos.side (stopAt pos c) c) := by
  have hmem : c ∈ before ++ c :: after := List.mem_append_right _ List.mem_cons_self
  have hreach := reaches_snapshot (hcs ▸ hformed) pos.side
  rw [← hcs] at hreach
  -- when both fill at the same stop, the opens decide
  have hfill : ∀ stop, stopAt pos c = stop → (before ≠ [] → ¬ Reaches pos.side stop first.low first.high) →
      (rawFill pos.side stop first.opening = rawFill pos.side (stopAt pos c) c.opening ↔
        before = [] ∨ ¬ GapsThrough pos.side (stopAt pos c) c) := by
    intro stop hstop hfirst
    by_cases hempty : before = []
    · subst hempty
      have hcfirst : c = first := (List.cons.inj hcs).1
      rw [hstop, hcfirst]
      exact ⟨fun _ => .inl rfl, fun _ => rfl⟩
    · have hformed' : WellFormed first := hformed first (by rw [hcs]; exact List.mem_cons_self)
      rw [rawFill_of_not_reaches hformed' (hfirst hempty), hstop, eq_comm,
        rawFill_eq_iff (hformed c hmem)]
      exact ⟨.inr, fun h => h.resolve_left hempty⟩
  have hfirst : before ≠ [] → ¬ Hit pos first := by
    intro hne
    obtain ⟨d, ds, rfl⟩ := List.exists_cons_of_ne_nil hne
    have hd : d = first := (List.cons.inj hcs).1
    exact hd ▸ hbefore d List.mem_cons_self
  rw [decision_exitOf]
  unfold hitReason decisionAt
  by_cases hsl : Reaches pos.side pos.sl c.low c.high
  · have hstop : stopAt pos c = pos.sl := if_pos hsl
    have hiff := hfill pos.sl hstop fun hne h => hfirst hne (.inl h)
    rw [if_pos ((hreach pos.sl).mpr ⟨c, hmem, hsl⟩), if_pos hsl, Option.map_some, Option.some.injEq,
      Prod.mk.injEq]
    exact ⟨fun h => ⟨.inl hsl, hiff.mp h.2⟩, fun h => ⟨rfl, hiff.mpr h.2⟩⟩
  · have hstop : stopAt pos c = pos.catastrophe := if_neg hsl
    have hcat : Reaches pos.side pos.catastrophe c.low c.high := hc.resolve_left hsl
    have hiff := hfill pos.catastrophe hstop fun hne h => hfirst hne (.inr h)
    by_cases hany : ∃ d ∈ before ++ c :: after, Reaches pos.side pos.sl d.low d.high
    · rw [if_pos ((hreach pos.sl).mpr hany), if_neg hsl, Option.map_some, Option.some.injEq,
        Prod.mk.injEq]
      obtain ⟨d, hd, hdsl⟩ := hany
      constructor
      · intro h
        cases h.1
      · rintro ⟨hno | hno, -⟩
        · exact absurd hno hsl
        · exact absurd hdsl (hno d hd)
    · rw [if_neg fun h => hany ((hreach pos.sl).mp h),
        if_pos ((hreach pos.catastrophe).mpr ⟨c, hmem, hcat⟩), if_neg hsl, Option.map_some,
        Option.some.injEq, Prod.mk.injEq]
      push Not at hany
      exact ⟨fun h => ⟨.inr hany, hiff.mp h.2⟩, fun h => ⟨rfl, hiff.mpr h.2⟩⟩

end Calls

/-- The first element with a property, with what stands before it. -/
lemma exists_first {cs : List Candle} {p : Candle → Prop} [DecidablePred p] (h : ∃ c ∈ cs, p c) :
    ∃ before c after, cs = before ++ c :: after ∧ (∀ d ∈ before, ¬ p d) ∧ p c := by
  cases hfind : cs.find? (fun c => p c) with
  | none =>
    obtain ⟨c, hc, hp⟩ := h
    exact absurd hp (by simpa using List.find?_eq_none.mp hfind c hc)
  | some c =>
    obtain ⟨hp, before, after, hcs, hbefore⟩ := List.find?_eq_some_iff_append.mp hfind
    exact ⟨before, c, after, hcs, fun d hd => by simpa using hbefore d hd, of_decide_eq_true hp⟩

/-- For strictly increasing well-formed candles after `last_managed_ms`, one call on all of them and a
call after each decide alike exactly when the first candle that reaches a stop reaches the trailing stop
unless none of them does, and is the first of all or does not open beyond its stop. -/
theorem batching_iff (settings : Settings) {pos : Position} {data cs : List Candle}
    (hdata : ∀ d ∈ data, d.time ≤ pos.lastManagedMs)
    (hsorted : cs.Pairwise fun d e => d.time < e.time) (hnew : ∀ d ∈ cs, pos.lastManagedMs < d.time)
    (hformed : ∀ d ∈ cs, WellFormed d) :
    decision (managePosition settings pos (data ++ cs)).2 =
        decision (manageEach settings pos data cs) ↔ BatchesAlike pos cs := by
  by_cases hany : ∃ c ∈ cs, Hit pos c
  · constructor
    · intro hsame before c after hcs hbefore hc
      subst hcs
      rw [manageEach_append hdata hsorted hnew hbefore hc] at hsame
      obtain ⟨first, rest, hfirst⟩ := List.exists_cons_of_ne_nil (l := before ++ c :: after) (by simp)
      rw [managePosition_append settings hdata hfirst hnew] at hsame
      exact (batch_iff hfirst hformed hbefore hc).mp hsame
    · intro halike
      obtain ⟨before, c, after, hcs, hbefore, hc⟩ := exists_first hany
      have hcondition := halike before c after hcs hbefore hc
      subst hcs
      obtain ⟨first, rest, hfirst⟩ := List.exists_cons_of_ne_nil (l := before ++ c :: after) (by simp)
      rw [manageEach_append hdata hsorted hnew hbefore hc, managePosition_append settings hdata hfirst hnew]
      exact (batch_iff hfirst hformed hbefore hc).mpr hcondition
  · have hnone : ∀ c ∈ cs, ¬ Hit pos c := fun c hc hhit => hany ⟨c, hc, hhit⟩
    have hbatch : (managePosition settings pos (data ++ cs)).2 = none := by
      cases cs with
      | nil =>
        have hold : (data.filter fun c => pos.lastManagedMs < c.time) = [] := by
          refine List.filter_eq_nil_iff.mpr fun c hc hlate => ?_
          exact absurd (of_decide_eq_true hlate) (not_lt.mpr (hdata c hc))
        unfold managePosition
        rw [List.append_nil, hold]
      | cons first rest =>
        rw [managePosition_append settings hdata rfl hnew]
        unfold exitOf hitReason
        rw [if_neg, if_neg]
        · rfl
        · intro h
          obtain ⟨c, hc, hcat⟩ := (reaches_snapshot hformed _ _).mp h
          exact hnone c hc (.inr hcat)
        · intro h
          obtain ⟨c, hc, hsl⟩ := (reaches_snapshot hformed _ _).mp h
          exact hnone c hc (.inl hsl)
    rw [hbatch, manageEach_none hdata hsorted hnew hnone]
    refine ⟨fun _ before c after hcs _ hc => ?_, fun _ => rfl⟩
    exact absurd hc (hnone c (by rw [hcs]; exact List.mem_append_right _ List.mem_cons_self))

/-- A long position with its trailing stop at 95. -/
def longPosition : Position :=
  { side := .long, entry := 100, sl := 95, catastrophe := 75, lastManagedMs := 0, openedAtMs := 0 }

/-- The second of two candles touches the stop, and both ways close at 95. -/
theorem batching_touch :
    decision (managePosition {} longPosition
        ([] ++ [⟨60000, 100, 101, 99⟩, ⟨120000, 97, 98, 94⟩])).2 =
      decision (manageEach {} longPosition [] [⟨60000, 100, 101, 99⟩, ⟨120000, 97, 98, 94⟩]) := by
  refine (batching_iff {} (by simp) (by simp) (by simp [longPosition]) ?_).mpr ?_
  · intro c hc
    rcases List.mem_cons.mp hc with rfl | hc
    · exact ⟨99, 100, 101, rfl, rfl, rfl, by norm_num, by norm_num⟩
    · rw [List.mem_singleton.mp hc]
      exact ⟨94, 97, 98, rfl, rfl, rfl, by norm_num, by norm_num⟩
  · intro before c after hcs hbefore hc
    rcases before with _ | ⟨d, _ | ⟨e, before⟩⟩
    · rw [(List.cons.inj hcs).1.symm] at hc
      exact absurd hc (by decide +kernel)
    · rw [← (List.cons.inj (List.cons.inj hcs).2).1]
      exact ⟨.inl (by decide +kernel), .inr (by decide +kernel)⟩
    · simp at hcs

/-- The second of two candles opens below the stop: on its own it is filled at its open of 90, in the
batch at the stop. -/
theorem batching_hides_gap :
    (∀ c ∈ ([⟨60000, 100, 101, 99⟩, ⟨120000, 90, 92, 88⟩] : List Candle), WellFormed c) ∧
      decision (managePosition {} longPosition [⟨60000, 100, 101, 99⟩, ⟨120000, 90, 92, 88⟩]).2 =
        some (.atrTrailingStop, 95) ∧
      decision (manageEach {} longPosition [] [⟨60000, 100, 101, 99⟩, ⟨120000, 90, 92, 88⟩]) =
        some (.atrTrailingStop, 90) := by
  refine ⟨?_, by decide +kernel, by decide +kernel⟩
  intro c hc
  rcases List.mem_cons.mp hc with rfl | hc
  · exact ⟨99, 100, 101, rfl, rfl, rfl, by norm_num, by norm_num⟩
  · rw [List.mem_singleton.mp hc]
    exact ⟨88, 90, 92, rfl, rfl, rfl, by norm_num, by norm_num⟩

end PaperTrade.Alphas.HyperTurbo
