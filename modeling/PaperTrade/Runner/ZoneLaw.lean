import PaperTrade.Runner.FlipTrades
import PaperTrade.Runner.ReverseMirror

/-!
# The transition table of `BollingerMeanRevLsRunnerStrategy`

The position follows the zone of the last closed candle by a table of sides and zones. The zone is that of
`_zone_from_closes`, whose thresholds are `-2` and `0`; `z_entry_buy` and `z_entry_sell` are only written
into the signals. So the table is followed at the configured thresholds as long as they ask for the same
side as `-2` and `0` do.
-/

namespace PaperTrade.Runner.BollingerLs

open PaperTrade.Runtime

/-! ## The documented table -/

/-- The zone of a z-score with respect to two thresholds. -/
def thresholdZone (buy sell z : PyFloat) : Zone :=
  if z < buy then .buy else if sell < z then .sell else .between

/-- The table: the side that is held before, the zone, and the side after. -/
def documentedSide : Option Side → Zone → Option Side
  | none, .buy => some .long
  | none, .sell => some .short
  | none, .between => none
  | some .long, .sell => some .short
  | some .long, _ => some .long
  | some .short, .buy => some .long
  | some .short, .between => none
  | some .short, .sell => some .short

variable (x : BollingerLs)

/-- The table with every side swapped where `reverse` is set. -/
def transition (side : Option Side) (zone : Zone) : Option Side :=
  if x.reverse then (documentedSide (side.map Side.swap) zone).map Side.swap
  else documentedSide side zone

/-- The side that is held. -/
def heldSide (s : LsState) : Option Side := (existingPosition s).map LsPosition.side

/-- The new candle that a scan evaluates, and the z-score of the last one before it. -/
def newBar (sqrt : PyFloat → PyFloat) (s : LsState) (snapshot : List Candle) :
    Option (Candle × PyFloat) :=
  match s.pendingBarOpen, (x.series snapshot).getLast? with
  | some candleOpenMs, some c =>
    if ((x.series snapshot).length : ℤ) < x.minTfBars + 1 ∨ c.time ≠ candleOpenMs then none
    else match zscore sqrt ((x.series snapshot).dropLast.map Candle.close) x.bbPeriod with
      | .ok (some z) => some (c, z)
      | _ => none
  | _, _ => none

/-- A scan moves the side by the table, at the configured thresholds; without a new candle the side
stays. -/
def FollowsTable (digest : Logical → String) (uuid5 : String → String) (sqrt : PyFloat → PyFloat)
    (env : ℕ → DispatchEnv) (w : LsState × Outbox) : Event → Prop
  | .kline _ _ => True
  | .scan snapshot =>
    heldSide (x.step digest uuid5 sqrt env w (.scan snapshot)).1 =
      match x.newBar sqrt w.1 snapshot with
      | none => heldSide w.1
      | some (_, z) => x.transition (heldSide w.1) (thresholdZone x.zEntryBuy x.zEntrySell z)

/-- Entries are allowed at a candle: it is in the range of years, and its open gives a quantity. -/
structure EntriesAllowed (c : Candle) : Prop where
  year : ∃ year, barYear c.time = .ok year ∧ x.startYear ≤ (year : ℤ)
  qty : ∃ qty, x.positionQty c.opening = .ok qty ∧ ¬ qty < .fin (1 / 1000)

instance (c : Candle) : Decidable (x.EntriesAllowed c) :=
  decidable_of_iff
    ((barYear c.time).toOption.any (fun year => decide (x.startYear ≤ (year : ℤ))) = true ∧
      (x.positionQty c.opening).toOption.any (fun qty => decide (¬ qty < .fin (1 / 1000))) = true) <| by
    constructor
    · rintro ⟨hyear, hqty⟩
      cases hy : barYear c.time with
      | error e => rw [hy] at hyear; exact nomatch hyear
      | ok year =>
        cases hq : x.positionQty c.opening with
        | error e => rw [hq] at hqty; exact nomatch hqty
        | ok qty =>
          rw [hy] at hyear
          rw [hq] at hqty
          exact ⟨⟨year, hy, of_decide_eq_true hyear⟩, qty, hq, of_decide_eq_true hqty⟩
    · rintro ⟨⟨year, hy, hyear⟩, qty, hq, hqty⟩
      rw [hy, hq]
      exact ⟨decide_eq_true hyear, decide_eq_true hqty⟩

/-- The configured thresholds ask for the side that a scan gives: at the first new candle of a process for
the side that is there, and at a later one, at which entries are allowed, for the same side as `-2` and
`0`. -/
def ThresholdsAgree (sqrt : PyFloat → PyFloat) (w : LsState × Outbox) : Event → Prop
  | .kline _ _ => True
  | .scan snapshot => ∀ b ∈ x.newBar sqrt w.1 snapshot,
    if w.1.lastBarOpen = none then
      x.transition (heldSide w.1) (thresholdZone x.zEntryBuy x.zEntrySell b.2) = heldSide w.1
    else x.EntriesAllowed b.1 ∧
      x.transition (heldSide w.1) (thresholdZone (-2) 0 b.2) =
        x.transition (heldSide w.1) (thresholdZone x.zEntryBuy x.zEntrySell b.2)

instance (digest : Logical → String) (uuid5 : String → String) (sqrt : PyFloat → PyFloat)
    (env : ℕ → DispatchEnv) (w : LsState × Outbox) (e : Event) :
    Decidable (x.FollowsTable digest uuid5 sqrt env w e) := by
  cases e <;> unfold FollowsTable <;> infer_instance

instance (sqrt : PyFloat → PyFloat) (w : LsState × Outbox) (e : Event) :
    Decidable (x.ThresholdsAgree sqrt w e) := by
  cases e <;> unfold ThresholdsAgree <;> infer_instance

/-! ## One scan -/

variable {x} {digest : Logical → String} {uuid5 : String → String} {sqrt : PyFloat → PyFloat}
  {env : ℕ → DispatchEnv} {s : LsState}

/-- At most one position is open. -/
def OneAtMost (s : LsState) : Prop := s.positions.rows.length ≤ 1

/-- `followZone` goes by the table. -/
lemma transition_cases (side : Option Side) (zone : Zone) :
    x.transition side zone =
      match side, zone with
      | none, .buy => some x.longSide
      | none, .sell => some x.shortSide
      | none, .between => none
      | some side, zone =>
        if side = x.longSide then (if zone = .sell then some x.shortSide else some side)
        else match zone with
          | .buy => some x.longSide
          | .between => none
          | .sell => some side := by
  unfold transition longSide shortSide
  cases x.reverse <;> cases side with
  | none => cases zone <;> rfl
  | some side => cases side <;> cases zone <;> rfl

lemma newBar_eq_some {snapshot : List Candle} {c : Candle} {z : PyFloat}
    (h : x.newBar sqrt s snapshot = some (c, z)) :
    ∃ t, s.pendingBarOpen = some t ∧ (x.series snapshot).getLast? = some c ∧
      ¬ (((x.series snapshot).length : ℤ) < x.minTfBars + 1 ∨ c.time ≠ t) ∧
      zscore sqrt ((x.series snapshot).dropLast.map Candle.close) x.bbPeriod = .ok (some z) := by
  unfold newBar at h
  cases hpending : s.pendingBarOpen with
  | none => rw [hpending] at h; exact nomatch h
  | some t =>
    cases hlast : (x.series snapshot).getLast? with
    | none => rw [hpending, hlast] at h; exact nomatch h
    | some c' =>
      rw [hpending, hlast] at h
      dsimp only at h
      split at h
      · exact nomatch h
      · rename_i hfresh
        split at h
        · rename_i z' hz
          cases h
          exact ⟨t, rfl, rfl, hfresh, hz⟩
        · exact nomatch h

/-- The zone of `_zone_from_closes` is that of the thresholds `-2` and `0`. -/
lemma zoneFromCloses_of_zscore {closes : List PyFloat} {period : ℕ} {z : PyFloat}
    (h : zscore sqrt closes period = .ok (some z)) :
    zoneFromCloses sqrt closes period = .ok (some (thresholdZone (-2) 0 z)) := by
  have hlength : ¬ closes.length < period := by
    intro hshort
    rw [zscore, if_pos (.inl hshort)] at h
    exact nomatch h
  rw [zoneFromCloses, if_neg hlength, h]
  rfl

lemma zscore_of_zoneFromCloses {closes : List PyFloat} {period : ℕ} {zone : Zone}
    (h : zoneFromCloses sqrt closes period = .ok (some zone)) :
    ∃ z, zscore sqrt closes period = .ok (some z) := by
  unfold zoneFromCloses at h
  split at h
  · exact nomatch h
  · split at h
    · exact nomatch h
    · exact nomatch h
    · rename_i z hz
      exact ⟨z, hz⟩

/-- The method returns, and leaves a book of at most one position on this side. -/
def Moves (p : Method LsState Unit) (s : LsState) (side : Option Side) : Prop :=
  ∃ cs s', Ends p s () cs s' ∧ heldSide s' = side ∧ OneAtMost s'

lemma Moves.get_bind {k : LsState → Method LsState Unit} {side : Option Side}
    (h : Moves (k s) s side) : Moves (getState >>= k) s side := by
  obtain ⟨cs, s', hends, hheld⟩ := h
  exact ⟨cs, s', Ends.get_bind hends, hheld⟩

lemma Moves.modify_bind {f : LsState → LsState} {k : Unit → Method LsState Unit} {side : Option Side}
    (h : Moves (k ()) (f s) side) : Moves (modifyState f >>= k) s side := by
  obtain ⟨cs, s', hends, hheld⟩ := h
  exact ⟨cs, s', Ends.modify_bind hends, hheld⟩

lemma Moves.ofExcept_bind {α : Type} {r : Except StrategyError α} {a : α} (hr : r = .ok a)
    {k : α → Method LsState Unit} {side : Option Side} (h : Moves (k a) s side) :
    Moves (Coro.ofExcept r >>= k) s side := by
  obtain ⟨cs, s', hends, hheld⟩ := h
  refine ⟨cs, s', Acts.ofExcept_bind (fun b hb => ?_) (fun e he => ?_), hheld⟩
  · rw [hr] at hb
    cases hb
    exact hends
  · rw [hr] at he
    exact nomatch he

/-- An assignment after the method that leaves the positions alone. -/
lemma Moves.then_modify {p : Method LsState Unit} {side : Option Side} {f : LsState → LsState}
    (h : Moves p s side) (hf : ∀ s, (f s).positions = s.positions) :
    Moves (do p; modifyState f) s side := by
  obtain ⟨cs, s', hends, hside, hone⟩ := h
  refine ⟨_, f s', hends.bind Ends.modify, ?_, ?_⟩
  · rw [← hside, heldSide, heldSide, existingPosition, existingPosition, hf]
  · rw [OneAtMost, hf]
    exact hone

lemma Moves.run {p : Method LsState Unit} {side : Option Side} (h : Moves p s side) (o : Outbox) :
    heldSide (p.run (s, o)).2.1 = side ∧ OneAtMost (p.run (s, o)).2.1 := by
  obtain ⟨cs, s', hends, hheld⟩ := h
  rw [(Acts.run hends o).2.2]
  exact hheld

lemma Moves.stays (hone : OneAtMost s) : Moves (pure ()) s (heldSide s) :=
  ⟨[], s, Ends.pure, rfl, hone⟩

section Methods

variable (henv : Acknowledges env)
include henv

lemma ends_closePosition (p : LsPosition) (reason : String) (price : PyFloat) (t : ℤ) :
    Ends (x.closePosition digest env p reason price t) s ()
      [x.closeCall p.positionId reason price t]
      { s with positions := s.positions.erase p.positionId } :=
  (Ends.emit henv fun _ => rfl).bind Ends.modify

lemma moves_closePosition {p : LsPosition} (hrows : s.positions.rows = [p]) (reason : String)
    (price : PyFloat) (t : ℤ) : Moves (x.closePosition digest env p reason price t) s none := by
  have hempty : (s.positions.erase p.positionId).rows = [] := rows_erase_singleton hrows
  refine ⟨_, _, ends_closePosition henv p reason price t, ?_, ?_⟩
  · show (List.head? _).map LsPosition.side = none
    rw [hempty]
    rfl
  · show List.length _ ≤ 1
    rw [hempty]
    exact Nat.zero_le 1

/-- With no position, and a quantity for the price, one is opened. -/
lemma moves_openPosition (hflat : s.positions.rows = []) {price : PyFloat}
    (hqty : ∃ qty, x.positionQty price = .ok qty ∧ ¬ qty < .fin (1 / 1000)) (side : Side) (t : ℤ) :
    Moves (x.openPosition digest uuid5 env side price t) s (some side) := by
  obtain ⟨qty, hqty, hlarge⟩ := hqty
  have hnone : ¬ (existingPosition s).isSome = true := by rw [existingPosition, hflat]; exact nofun
  have hrows := rows_insertOrIgnore_empty hflat (x.newPosition uuid5 side price qty t)
  refine ⟨[x.openCall (x.newPosition uuid5 side price qty t)],
    { s with positions := s.positions.insertOrIgnore (x.newPosition uuid5 side price qty t) }, ?_, ?_,
    ?_⟩
  · refine Ends.get_bind ?_
    rw [if_neg hnone, hqty]
    refine Acts.ofExcept_bind (fun a ha => ?_) fun e he => nomatch he
    cases ha
    rw [if_neg hlarge]
    exact (Ends.emit henv fun _ => rfl).bind Ends.modify
  · show (List.head? _).map LsPosition.side = _
    rw [hrows]
    rfl
  · show List.length _ ≤ 1
    rw [hrows]
    exact le_rfl

/-- A flip closes the position and opens one of the other side. -/
lemma moves_flip {p : LsPosition} (hrows : s.positions.rows = [p]) {price : PyFloat}
    (hqty : ∃ qty, x.positionQty price = .ok qty ∧ ¬ qty < .fin (1 / 1000)) (side : Side) (t : ℤ) :
    Moves (do
      x.closePosition digest env p "FLIP" price t
      x.openPosition digest uuid5 env side price t) s (some side) := by
  have hflat : (s.positions.erase p.positionId).rows = [] := rows_erase_singleton hrows
  have hmoves : Moves (x.openPosition digest uuid5 env side price t)
      { s with positions := s.positions.erase p.positionId } (some side) :=
    moves_openPosition henv hflat hqty side t
  obtain ⟨cs, s', hopen, hheld⟩ := hmoves
  exact ⟨_, s', (ends_closePosition henv p "FLIP" price t).bind hopen, hheld⟩

/-- The position follows the zone by the table. -/
lemma moves_followZone (hone : OneAtMost s) {price : PyFloat}
    (hqty : ∃ qty, x.positionQty price = .ok qty ∧ ¬ qty < .fin (1 / 1000)) (zone : Zone) (t : ℤ) :
    Moves (x.followZone digest uuid5 env zone price t) s (x.transition (heldSide s) zone) := by
  have hstays := Moves.stays hone
  rw [transition_cases]
  refine Moves.get_bind ?_
  cases hpos : existingPosition s with
  | none =>
    have hflat : s.positions.rows = [] := List.head?_eq_none_iff.mp hpos
    have hside : heldSide s = none := by rw [heldSide, hpos]; rfl
    rw [hside] at hstays ⊢
    cases zone with
    | buy => exact moves_openPosition henv hflat hqty x.longSide t
    | sell => exact moves_openPosition henv hflat hqty x.shortSide t
    | between => exact hstays
  | some p =>
    have hrows : s.positions.rows = [p] := rows_eq_singleton hpos hone
    have hside : heldSide s = some p.side := by rw [heldSide, hpos]; rfl
    rw [hside] at hstays ⊢
    dsimp only
    by_cases hlong : p.side = x.longSide
    · rw [if_pos hlong, if_pos hlong]
      by_cases hsell : zone = .sell
      · rw [if_pos hsell, if_pos hsell]
        exact moves_flip henv hrows hqty x.shortSide t
      · rw [if_neg hsell, if_neg hsell]
        exact hstays
    · rw [if_neg hlong, if_neg hlong]
      cases zone with
      | buy => exact moves_flip henv hrows hqty x.longSide t
      | sell => exact hstays
      | between => exact moves_closePosition henv hrows "CASH" price t

/-- A scan with a later new candle, at which entries are allowed, goes by the table of `-2` and `0`. -/
lemma heldSide_scan_newBar (hone : OneAtMost s) (o : Outbox) {snapshot : List Candle} {c : Candle}
    {z : PyFloat} (hbar : x.newBar sqrt s snapshot = some (c, z)) (hstarted : s.lastBarOpen ≠ none)
    (hallowed : x.EntriesAllowed c) :
    heldSide (x.step digest uuid5 sqrt env (s, o) (.scan snapshot)).1 =
        x.transition (heldSide s) (thresholdZone (-2) 0 z) ∧
      OneAtMost (x.step digest uuid5 sqrt env (s, o) (.scan snapshot)).1 := by
  refine Moves.run (p := x.scan digest uuid5 sqrt env snapshot) ?_ o
  obtain ⟨t, hpending, hlast, hfresh, hz⟩ := newBar_eq_some hbar
  obtain ⟨year, hyear, hrange⟩ := hallowed.year
  have hzone := zoneFromCloses_of_zscore hz
  refine Moves.get_bind ?_
  rw [hpending]
  refine Moves.then_modify ?_ fun _ => rfl
  rw [scanTf, hlast]
  dsimp only
  rw [if_neg hfresh]
  refine Moves.ofExcept_bind hzone ?_
  refine Moves.get_bind (Moves.modify_bind ?_)
  rw [if_neg hstarted]
  refine Moves.ofExcept_bind hyear ?_
  rw [if_neg (not_lt.mpr hrange)]
  exact moves_followZone henv (s := { s with lastBarOpen := some c.time }) hone hallowed.qty _ _

omit henv in
/-- The first new candle of a process leaves the position alone. -/
lemma heldSide_scan_first (hone : OneAtMost s) (o : Outbox) {snapshot : List Candle} {c : Candle}
    {z : PyFloat} (hbar : x.newBar sqrt s snapshot = some (c, z)) (hfirst : s.lastBarOpen = none) :
    heldSide (x.step digest uuid5 sqrt env (s, o) (.scan snapshot)).1 = heldSide s ∧
      OneAtMost (x.step digest uuid5 sqrt env (s, o) (.scan snapshot)).1 := by
  refine Moves.run (p := x.scan digest uuid5 sqrt env snapshot) ?_ o
  obtain ⟨t, hpending, hlast, hfresh, hz⟩ := newBar_eq_some hbar
  have hzone := zoneFromCloses_of_zscore hz
  refine Moves.get_bind ?_
  rw [hpending]
  refine Moves.then_modify ?_ fun _ => rfl
  rw [scanTf, hlast]
  dsimp only
  rw [if_neg hfresh]
  refine Moves.ofExcept_bind hzone ?_
  refine Moves.get_bind (Moves.modify_bind ?_)
  rw [if_pos hfirst]
  exact Moves.stays (s := { s with lastBarOpen := some c.time }) hone

end Methods

/-- A scan without a new candle leaves the positions alone. -/
lemma positions_scan_none (o : Outbox) {snapshot : List Candle} (hbar : x.newBar sqrt s snapshot = none) :
    (x.step digest uuid5 sqrt env (s, o) (.scan snapshot)).1.positions = s.positions := by
  have hstill : ∀ t, s.pendingBarOpen = some t →
      Acts (x.scanTf digest uuid5 sqrt env snapshot t) s fun _ _ s' => s' = s := by
    intro t hpending
    unfold scanTf
    cases hlast : (x.series snapshot).getLast? with
    | none => exact Acts.pure rfl
    | some c =>
      dsimp only
      split
      · exact Acts.pure rfl
      · rename_i hfresh
        refine Acts.ofExcept_bind (fun zone hzone => ?_) fun e _ => rfl
        cases zone with
        | none => exact Acts.pure rfl
        | some zone =>
          -- a zone comes of a z-score, and then there is a new candle
          obtain ⟨z, hz⟩ := zscore_of_zoneFromCloses hzone
          rw [newBar, hpending, hlast] at hbar
          dsimp only at hbar
          rw [if_neg hfresh, hz] at hbar
          exact nomatch hbar
  have hkeeps : Acts (x.scan digest uuid5 sqrt env snapshot) s
      fun _ _ s' => s'.positions = s.positions := by
    refine Acts.get_bind ?_
    cases hpending : s.pendingBarOpen with
    | none => exact Acts.pure rfl
    | some t =>
      refine Acts.bind ((hstill t hpending).mono ?_)
      rintro r cs s' rfl
      exact ⟨fun _ _ => Acts.modify rfl, fun _ _ => rfl⟩
  exact hkeeps.run o

/-! ## The run -/

/-- A step that meets the condition goes by the table at the configured thresholds. -/
lemma followsTable_step (henv : Acknowledges env) {w : LsState × Outbox} (hone : OneAtMost w.1) {e : Event}
    (h : x.ThresholdsAgree sqrt w e) :
    x.FollowsTable digest uuid5 sqrt env w e ∧ OneAtMost (x.step digest uuid5 sqrt env w e).1 := by
  obtain ⟨s, o⟩ := w
  cases e with
  | kline ready latest =>
    refine ⟨trivial, ?_⟩
    show OneAtMost (x.shouldScanAfterEvent ready latest s)
    unfold shouldScanAfterEvent
    split
    · dsimp only
      split <;> exact hone
    · exact hone
  | scan snapshot =>
    show heldSide _ = _ ∧ _
    cases hbar : x.newBar sqrt s snapshot with
    | none =>
      have hkept : (x.step digest uuid5 sqrt env (s, o) (.scan snapshot)).1.positions = s.positions :=
        positions_scan_none o hbar
      refine ⟨?_, ?_⟩
      · rw [heldSide, existingPosition, hkept]
        rfl
      · rw [OneAtMost, hkept]
        exact hone
    | some b =>
      obtain ⟨c, z⟩ := b
      have hcond := h (c, z) hbar
      by_cases hfirst : s.lastBarOpen = none
      · rw [if_pos hfirst] at hcond
        have hkept : heldSide (x.step digest uuid5 sqrt env (s, o) (.scan snapshot)).1 = heldSide s ∧
            OneAtMost (x.step digest uuid5 sqrt env (s, o) (.scan snapshot)).1 :=
          heldSide_scan_first hone o hbar hfirst
        exact ⟨hkept.1.trans hcond.symm, hkept.2⟩
      · rw [if_neg hfirst] at hcond
        obtain ⟨hallowed, hagree⟩ := hcond
        have hmoved : heldSide (x.step digest uuid5 sqrt env (s, o) (.scan snapshot)).1 =
              x.transition (heldSide s) (thresholdZone (-2) 0 z) ∧
            OneAtMost (x.step digest uuid5 sqrt env (s, o) (.scan snapshot)).1 :=
          heldSide_scan_newBar henv hone o hbar hfirst hallowed
        exact ⟨hmoved.1.trans hagree, hmoved.2⟩

/-- In every run whose new candles meet the condition, every scan moves the side by the table at the
configured thresholds. -/
theorem along_followsTable (x : BollingerLs) (digest : Logical → String) (uuid5 : String → String)
    (sqrt : PyFloat → PyFloat) {env : ℕ → DispatchEnv} (henv : Acknowledges env) (d : Dispatcher)
    (events : List Event)
    (h : Along (x.step digest uuid5 sqrt env) (x.ThresholdsAgree sqrt) ({}, { dispatcher := d }) events) :
    Along (x.step digest uuid5 sqrt env) (x.FollowsTable digest uuid5 sqrt env)
      ({}, { dispatcher := d }) events :=
  have hempty : OneAtMost {} := Nat.zero_le 1
  Along.of_inv (I := fun w => OneAtMost w.1)
    (fun _ _ hone hagree => (followsTable_step henv hone hagree).2)
    (fun _ _ hone hagree => (followsTable_step henv hone hagree).1) hempty h

/-! ## Other thresholds -/

/-- Bands over three candles, with a position from a z-score of -0.5 on. -/
def nearThreshold : BollingerLs := { threeDays with zEntryBuy := .fin (-1 / 2) }

/-- Five candles that close so. -/
def closingAt (closes : List ℚ) : List Candle :=
  closes.mapIdx fun n q => ⟨q, q, q, q, 1709942400000 + 86400000 * n⟩

/-- The fourth and the fifth candle arrive, and are scanned. -/
def arrivals (candles : List Candle) : List Event :=
  [3, 4].flatMap fun n : ℕ =>
    [.kline true (candles[n]?.map Candle.time), .scan (candles.take (n + 1))]

/-- A rise after the first candle: the z-score is 1, and both pairs of thresholds ask for a short. -/
theorem nearThreshold_followsTable :
    Along (nearThreshold.step Dispatcher.typeDigest id exactSqrt quietEnv)
      (nearThreshold.FollowsTable Dispatcher.typeDigest id exactSqrt quietEnv)
      ({}, { dispatcher := {} }) (arrivals (closingAt [95, 108, 97, 119, 119])) :=
  along_followsTable nearThreshold Dispatcher.typeDigest id exactSqrt (fun _ _ => rfl) {} _
    (by decide +kernel)

/-- A fall after it: the z-score is -1, below the configured threshold of -0.5, and no long is opened. -/
theorem configured_threshold_ignored :
    ¬ Along (nearThreshold.step Dispatcher.typeDigest id exactSqrt quietEnv)
      (nearThreshold.FollowsTable Dispatcher.typeDigest id exactSqrt quietEnv)
      ({}, { dispatcher := {} }) (arrivals (closingAt [95, 108, 97, 86, 86])) ∧
    heldSide (nearThreshold.run Dispatcher.typeDigest id exactSqrt quietEnv ({}, { dispatcher := {} })
      (arrivals (closingAt [95, 108, 97, 86, 86]))).1 = none ∧
    nearThreshold.transition none (thresholdZone nearThreshold.zEntryBuy nearThreshold.zEntrySell (-1)) =
      some .long := by decide +kernel

end PaperTrade.Runner.BollingerLs
