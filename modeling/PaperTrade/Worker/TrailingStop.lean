import PaperTrade.Worker.Duplicates

/-!
# Trailing stops

`process_modify` refuses a stop loss that moves against the position, and nothing else writes the
column. The comparison lets a NaN through, and SQLite stores it as `NULL`: `nanStop_lost`. In a run
whose MODIFYs of the position carry no NaN the stop of a LONG never falls, that of a SHORT never
rises, and neither disappears.
-/

namespace PaperTrade.Worker

open PaperTrade.Runtime

/-- A stored stop loss is a number. -/
def StopsStored (s : Tables) : Prop := ∀ p ∈ s.positions.rows, p.sl ≠ some .nan

lemma real_ne_nan (x : PyFloat) : real x ≠ some .nan := by
  cases x <;> simp [real]

lemma deliver_stopsStored (ex : Executor) (m : Delivery) {s : Tables} (h : StopsStored s) :
    StopsStored (deliver ex s m) := by
  intro p' hp'
  cases deliver_rows ex m s hp' with
  | kept hp => exact h p' hp
  | @opened signal _ _ _ hrow =>
    rw [hrow]
    change signal.sl.bind real ≠ some .nan
    cases signal.sl with
    | none => exact nofun
    | some x => exact real_ne_nan x
  | @modified signal p _ _ hp _ _ hrow =>
    rw [hrow]
    change (signal.sl.map real).getD p.sl ≠ some .nan
    cases signal.sl with
    | none => exact h p hp
    | some x => exact real_ne_nan x
  | @reduced _ p _ _ _ hp _ hrow =>
    rw [hrow]
    exact h p hp

theorem deliverAll_stopsStored (ex : Executor) (ms : List Delivery) {s : Tables}
    (h : StopsStored s) : StopsStored (deliverAll ex s ms) := by
  induction ms generalizing s with
  | nil => exact h
  | cons m ms ih => exact ih (deliver_stopsStored ex m h)

/-- The stop of the row has not moved against the position. -/
structure Tightens (r r' : PositionRow) : Prop where
  side : r'.side = r.side
  stop : ∀ old, r.sl = some old → old ≠ .nan → ∃ new, r'.sl = some new ∧ new ≠ .nan ∧
    (r.side = "LONG" → old ≤ new) ∧ (r.side = "SHORT" → new ≤ old)

lemma Tightens.of_same {r r' : PositionRow} (hside : r'.side = r.side) (hsl : r'.sl = r.sl) :
    Tightens r r' :=
  ⟨hside, fun old hold hnan => ⟨old, hsl.trans hold, hnan, fun _ => PyFloat.le_self hnan,
    fun _ => PyFloat.le_self hnan⟩⟩

lemma Tightens.trans {r₁ r₂ r₃ : PositionRow} (h₁ : Tightens r₁ r₂) (h₂ : Tightens r₂ r₃) :
    Tightens r₁ r₃ := by
  refine ⟨h₂.side.trans h₁.side, fun old hold hnan => ?_⟩
  obtain ⟨mid, hmid, hnan', hlong, hshort⟩ := h₁.stop old hold hnan
  obtain ⟨new, hnew, hnan'', hlong', hshort'⟩ := h₂.stop mid hmid hnan'
  rw [h₁.side] at hlong' hshort'
  exact ⟨new, hnew, hnan'', fun h => PyFloat.le_trans (hlong h) (hlong' h),
    fun h => PyFloat.le_trans (hshort' h) (hshort h)⟩

/-- The check of `process_modify` compares two numbers. -/
lemma checkStop_ok {pos : PositionRow} {new old : PyFloat}
    (h : Executor.checkStop pos (some new) = .ok ()) (hold : pos.sl = some old) :
    (pos.side = "LONG" → ¬ new < old) ∧ (pos.side = "SHORT" → ¬ old < new) := by
  simp only [Executor.checkStop, hold] at h
  split at h
  · cases h
  · rename_i hlong
    split at h
    · cases h
    · rename_i hshort
      exact ⟨fun hside hlt => hlong ⟨hside, hlt⟩, fun hside hlt => hshort ⟨hside, hlt⟩⟩

/-- A MODIFY of the position carries no NaN as its stop loss. -/
def NumericStop (m : Delivery) (id : String) : Prop :=
  ∀ signal, parseSignal m.data = .ok (.modify signal) → signal.positionId = id →
    signal.sl ≠ some .nan

/-- One message does not loosen a stop. -/
theorem deliver_tightens {ex : Executor} {m : Delivery} {s : Tables} {r r' : PositionRow}
    (hr : r ∈ s.positions.rows) (hr' : r' ∈ (deliver ex s m).positions.rows)
    (hid : r'.positionId = r.positionId) (hm : NumericStop m r.positionId) : Tightens r r' := by
  cases deliver_rows ex m s hr' with
  | kept h =>
    cases s.positions.eq_of_key_eq hr h hid.symm
    exact .of_same rfl rfl
  | opened _ _ hnew _ => exact absurd hid.symm ((Table.not_contains_iff _ _).mp hnew r hr)
  | reduced _ hp _ hrow =>
    subst hrow
    cases s.positions.eq_of_key_eq hr hp hid.symm
    exact .of_same rfl rfl
  | @modified signal p _ hparse hp hkey hstop hrow =>
    subst hrow
    cases s.positions.eq_of_key_eq hr hp hid.symm
    cases hsl : signal.sl with
    | none => exact .of_same rfl (by simp [PositionRow.updated])
    | some new =>
    have hnan : new ≠ .nan := fun h => hm signal hparse hkey.symm (h ▸ hsl)
    refine ⟨rfl, fun old hold hnan' => ⟨new, ?_, hnan, fun hside => ?_, fun hside => ?_⟩⟩
    · simp [PositionRow.updated, real_of_ne_nan hnan]
    · rw [hsl] at hstop
      exact PyFloat.le_of_not_lt hnan hnan' ((checkStop_ok hstop hold).1 hside)
    · rw [hsl] at hstop
      exact PyFloat.le_of_not_lt hnan' hnan ((checkStop_ok hstop hold).2 hside)

/-- From the moment a row has a stop loss until the row is removed, the stop of a LONG never falls,
that of a SHORT never rises, and it does not become `NULL`. -/
theorem stop_never_loosens (ex : Executor) (pre ms : List Delivery) (r : PositionRow)
    (hr : r ∈ (deliverAll ex .empty pre).positions.rows) (old : PyFloat) (hold : r.sl = some old)
    (hstays : Stays ex (deliverAll ex .empty pre) ms r.positionId)
    (hms : ∀ m ∈ ms, NumericStop m r.positionId) :
    ∃ r' ∈ (deliverAll ex .empty (pre ++ ms)).positions.rows, r'.positionId = r.positionId ∧
      ∃ new, r'.sl = some new ∧ (r.side = "LONG" → old ≤ new) ∧ (r.side = "SHORT" → new ≤ old) := by
  obtain ⟨r', hr', hid⟩ := (Table.contains_iff _ _).mp hstays.last
  have hstep : ∀ s, ∀ m ∈ ms, ∀ r₁ ∈ s.positions.rows, ∀ r₂ ∈ (deliver ex s m).positions.rows,
      r₁.positionId = r.positionId → r₂.positionId = r.positionId → Tightens r₁ r₂ :=
    fun s m hm r₁ hr₁ r₂ hr₂ hid₁ hid₂ =>
      deliver_tightens hr₁ hr₂ (hid₂.trans hid₁.symm) (by rw [hid₁]; exact hms m hm)
  have htightens : Tightens r r' := by
    refine Stays.relates (R := Tightens) ?_ ?_ hstep hstays hr hr' rfl hid
    · exact fun _ => .of_same rfl rfl
    · exact fun _ _ _ => Tightens.trans
  have hnan : old ≠ .nan := by
    rintro rfl
    exact deliverAll_stopsStored ex pre (s := .empty) (fun _ hp => nomatch hp) r hr hold
  obtain ⟨new, hnew, -, hlong, hshort⟩ := htightens.stop old hold hnan
  rw [deliverAll_append]
  exact ⟨r', hr', hid, new, hnew, hlong, hshort⟩

/-- A LONG with a stop at 95, and a MODIFY of its stop. -/
def stopped : Delivery where
  data :=
    { type := "OPEN", alphaId := "alpha", signalId := "s1", symbol := "BTCUSDT", side := "LONG"
      positionId := "p1", timestamp := "2024-01-01T00:00:00Z"
      entry := some (.chars "100"), qty := some (.chars "10"), sl := some (.chars "95") }
  env := { now := "2024-01-01T00:00:00", uuid := "u1" }

def moveStop (sl : String) : Delivery where
  data :=
    { type := "MODIFY", alphaId := "alpha", signalId := "s2", positionId := "p1"
      sl := some (.chars sl) }
  env := { now := "2024-01-01T01:00:00", uuid := "u2" }

/-- The stops of the rows after the run. -/
def stops (ms : List Delivery) : List (Option PyFloat) :=
  (deliverAll {} .empty ms).positions.rows.map PositionRow.sl

theorem stop_never_loosens_moveStop :
    ∃ r' ∈ (deliverAll {} .empty [stopped, moveStop "97"]).positions.rows, r'.positionId = "p1" ∧
      ∃ new, r'.sl = some new ∧ .fin 95 ≤ new := by
  have hrow : (deliverAll {} .empty [stopped]).positions.rows.any (fun r =>
      decide (r.positionId = "p1" ∧ r.sl = some (.fin 95) ∧ r.side = "LONG")) = true := by
    decide +kernel
  obtain ⟨r, hr, hfields⟩ := List.any_eq_true.mp hrow
  obtain ⟨hid, hsl, hside⟩ := decide_eq_true_eq.mp hfields
  have hmove : (modifyOf (parseSignal (moveStop "97").data)).all (fun signal =>
      decide (signal.sl ≠ some .nan)) = true := by decide +kernel
  have hnumeric : NumericStop (moveStop "97") r.positionId := fun signal hparse _ => by
    rw [modifyOf_eq_some.mpr hparse] at hmove
    exact of_decide_eq_true hmove
  have hstays : Stays {} (deliverAll {} .empty [stopped]) [moveStop "97"] r.positionId := by
    rw [hid]
    intro mid hmid
    rcases List.prefix_cons_iff.mp hmid with rfl | ⟨t, rfl, ht⟩
    · decide +kernel
    · rw [List.prefix_nil.mp ht]
      decide +kernel
  obtain ⟨r', hr', hid', new, hnew, hlong, -⟩ := stop_never_loosens {} [stopped] [moveStop "97"] r hr
    (.fin 95) hsl hstays (fun m hm => by rw [List.mem_singleton.mp hm]; exact hnumeric)
  exact ⟨r', hr', hid'.trans hid, new, hnew, hlong hside⟩

/-- A MODIFY to `nan` passes the check, and the stop is gone. -/
theorem nanStop_lost :
    stops [stopped] = [some (.fin 95)] ∧ stops [stopped, moveStop "nan"] = [none] ∧
      stops [stopped, moveStop "nan", { moveStop "50" with data.signalId := "s3" }] =
        [some (.fin 50)] := by
  decide +kernel

end PaperTrade.Worker
