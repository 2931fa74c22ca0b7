import PaperTrade.Runtime.Ticks
import PaperTrade.Worker.Duration

/-!
# Session time

The sessions as a set of instants of the wall clock (`InSession`), and the walk of
`active_session_seconds` as the measure of an interval in it (`activeSession_eq`). What the walk adds is
the part of its step that lies in a session: a step that adds nothing skips no session, and a step that
adds something stays inside one. The only walk without a result is one that the end of the calendar stops
(`activeSession_error`).
-/

namespace PaperTrade.Worker

open PaperTrade.Runtime

/-- The wall clock shows a weekday and a minute of a session window. -/
def InSession (wall : ℤ) : Prop :=
  wall / DateTime.day % 7 < 5 ∧
    ∃ w ∈ sessionWindowsUtc, w.1 ≤ wall % DateTime.day / DateTime.minute ∧
      wall % DateTime.day / DateTime.minute < w.2

instance : DecidablePred InSession := fun wall =>
  inferInstanceAs (Decidable (wall / DateTime.day % 7 < 5 ∧
    ∃ w ∈ sessionWindowsUtc, w.1 ≤ wall % DateTime.day / DateTime.minute ∧
      wall % DateTime.day / DateTime.minute < w.2))

lemma inSession_iff (wall : ℤ) : InSession wall ↔
    wall / 86400000000 % 7 < 5 ∧
      (105 ≤ wall % 86400000000 / 60000000 ∧ wall % 86400000000 / 60000000 < 270 ∨
        360 ≤ wall % 86400000000 / 60000000 ∧ wall % 86400000000 / 60000000 < 465) := by
  simp only [InSession, sessionWindowsUtc, day_eq, minute_eq, List.mem_cons, List.not_mem_nil, or_false,
    exists_eq_or_imp, exists_eq_left]
  norm_num

/-! ## One step -/

/-- On a weekend the cursor goes to the next Monday, and skips no session. -/
lemma weekend_skips {wall : ℤ} (h : 5 ≤ wall / 86400000000 % 7) {t : ℤ} (hlow : wall ≤ t)
    (hhigh : t < wall - wall % 86400000000 + (7 - wall / 86400000000 % 7) % 7 * 86400000000) :
    ¬ InSession t := by
  rw [inSession_iff]
  omega

/-- Outside of the windows the rest of the minute is outside, too. -/
lemma minute_skips {wall : ℤ} (h : ¬ InSession wall) {t : ℤ} (hlow : wall ≤ t)
    (hhigh : t < wall - wall % 60000000 + 60000000) : ¬ InSession t := by
  rw [inSession_iff] at h ⊢
  have hday : t / 86400000000 = wall / 86400000000 := by omega
  have hminute : t % 86400000000 / 60000000 = wall % 86400000000 / 60000000 := by omega
  rwa [hday, hminute]

/-- Inside of a window everything up to its end is in session. -/
lemma window_stays {wall stop : ℤ} (hweekday : wall / 86400000000 % 7 < 5)
    (hmem : ∃ start, (start, stop) ∈ sessionWindowsUtc ∧ start ≤ wall % 86400000000 / 60000000)
    {t : ℤ} (hlow : wall ≤ t)
    (hhigh : t < wall - wall % 86400000000 + stop * 60000000) : InSession t := by
  obtain ⟨start, hwindow, hstart⟩ := hmem
  have hbounds : (start = 105 ∧ stop = 270) ∨ (start = 360 ∧ stop = 465) := by
    simp only [sessionWindowsUtc, List.mem_cons, Prod.mk.injEq, List.not_mem_nil, or_false] at hwindow
    omega
  rw [inSession_iff]
  omega

/-- What a step adds is the session time that it passes. -/
lemma sessionStep_ticks {closed cursor next : DateTime} {added : ℤ}
    (hlt : cursor.instant < closed.instant) (h : sessionStep closed cursor = .ok (added, next)) :
    (next.offset = cursor.offset ∨ next = closed) ∧
      added + ticks InSession (cursor.wall + (next.instant - cursor.instant))
          (cursor.wall + (closed.instant - cursor.instant)) =
        ticks InSession cursor.wall (cursor.wall + (closed.instant - cursor.instant)) := by
  simp only [sessionStep] at h
  split at h
  · -- a weekend
    rename_i hweekend
    simp only [DateTime.weekday, day_eq] at hweekend
    cases hm : nextWeekdayMidnight cursor with
    | error e => rw [hm] at h; cases h
    | ok d =>
      rw [hm] at h
      cases h
      have hne : (7 - cursor.weekday) % 7 ≠ 0 := by
        simp only [DateTime.weekday, day_eq]
        omega
      simp only [nextWeekdayMidnight, if_neg hne] at hm
      have hd := addOrOverflow_instant hm
      have hoffset : next.offset = cursor.offset := by
        simp only [addOrOverflow, DateTime.add?] at hm
        split at hm
        · rename_i d' hd'
          split at hd' <;> cases hd'
          cases hm
          rfl
        · cases hm
      simp only [DateTime.floorDay, DateTime.weekday, DateTime.instant, day_eq] at hd
      refine ⟨.inl hoffset, ?_⟩
      rw [Int.zero_add, Nat.cast_inj]
      refine ticks_skip ?_ fun t hlow hhigh => weekend_skips hweekend hlow ?_
      · simp only [DateTime.instant]
        omega
      · simp only [DateTime.instant] at hhigh
        omega
  · rename_i hweekday
    simp only [DateTime.weekday, day_eq, not_le] at hweekday
    split at h
    · -- a session: the step stays inside of it
      rename_i start stop hw
      have hin := List.find?_some hw
      have hmem := List.mem_of_find?_eq_some hw
      simp only [decide_eq_true_eq, DateTime.minuteOfDay, day_eq, minute_eq] at hin
      cases h
      have hend : (cursor.atMinute stop).instant - cursor.instant =
          stop * 60000000 - cursor.wall % 86400000000 := by
        simp only [DateTime.atMinute, DateTime.instant, day_eq, minute_eq]
        omega
      have hinside (b : ℤ) (hb : b ≤ stop * 60000000 - cursor.wall % 86400000000) (t : ℤ)
          (hlow : cursor.wall ≤ t) (hhigh : t < cursor.wall + b) : InSession t :=
        window_stays hweekday ⟨start, hmem, hin.2⟩ hlow (by omega)
      split
      · rename_i hsession
        refine ⟨.inl rfl, ?_⟩
        have hlength : (ticks InSession cursor.wall
            (cursor.wall + ((cursor.atMinute stop).instant - cursor.instant)) : ℤ) =
            cursor.wall + ((cursor.atMinute stop).instant - cursor.instant) - cursor.wall :=
          ticks_of_forall (by omega) (hinside _ hend.le)
        have hsplit := ticks_add (p := InSession) (a := cursor.wall)
          (b := cursor.wall + ((cursor.atMinute stop).instant - cursor.instant))
          (c := cursor.wall + (closed.instant - cursor.instant)) (by omega) (by omega)
        omega
      · rename_i hsession
        refine ⟨.inr rfl, ?_⟩
        have hlength : (ticks InSession cursor.wall
            (cursor.wall + (closed.instant - cursor.instant)) : ℤ) =
            cursor.wall + (closed.instant - cursor.instant) - cursor.wall :=
          ticks_of_forall (by omega) (hinside _ (by omega))
        have hrest : ticks InSession (cursor.wall + (closed.instant - cursor.instant))
            (cursor.wall + (closed.instant - cursor.instant)) = 0 := ticks_of_le le_rfl
        omega
    · -- between the sessions
      rename_i hnone
      have hout : ¬ InSession cursor.wall := by
        rintro ⟨-, w, hw, hstart, hstop⟩
        have hfalse := List.find?_eq_none.mp hnone w hw
        simp only [decide_eq_true_eq, DateTime.minuteOfDay, day_eq, minute_eq] at hfalse hstart hstop
        exact hfalse ⟨hstop, hstart⟩
      cases hm : nextSessionStart cursor with
      | error e => rw [hm] at h; cases h
      | ok d =>
        rw [hm] at h
        cases h
        have hd := addOrOverflow_instant hm
        have hoffset : next.offset = cursor.offset := by
          simp only [nextSessionStart, addOrOverflow, DateTime.add?] at hm
          split at hm
          · rename_i d' hd'
            split at hd' <;> cases hd'
            cases hm
            rfl
          · cases hm
        simp only [DateTime.floorMinute, DateTime.instant, minute_eq] at hd
        refine ⟨.inl hoffset, ?_⟩
        rw [Int.zero_add, Nat.cast_inj]
        refine ticks_skip ?_ fun t hlow hhigh => minute_skips hout hlow ?_
        · simp only [DateTime.instant]
          omega
        · simp only [DateTime.instant] at hhigh
          omega

/-! ## The walk -/

lemma activeSession_of_le {closed cursor : DateTime} (h : closed.instant ≤ cursor.instant) :
    activeSession closed cursor = .ok 0 := by
  rw [activeSession, dif_neg (by omega)]

lemma activeSession_of_step {closed cursor next : DateTime} {added : ℤ}
    (hlt : cursor.instant < closed.instant) (h : sessionStep closed cursor = .ok (added, next)) :
    activeSession closed cursor = (activeSession closed next).map (added + ·) := by
  rw [activeSession, dif_pos hlt]
  split
  · rename_i h'
    rw [h] at h'
    cases h'
  · rename_i h'
    rw [h] at h'
    cases h'
    rfl

/-- Inside the calendar the walk gives the session time between its ends, on the clock of the opening. -/
theorem activeSession_eq (closed cursor : DateTime) (hend : EndsInCalendar cursor closed) :
    activeSession closed cursor =
      .ok (ticks InSession cursor.wall (cursor.wall + (closed.instant - cursor.instant))) := by
  induction cursor using activeSession.induct closed with
  | case1 cursor hlt e hs =>
    obtain ⟨added, next, hok, -⟩ := sessionStep_ok hlt hend
    rw [hok] at hs
    cases hs
  | case2 cursor hlt added next hs ih =>
    obtain ⟨hnext, hticks⟩ := sessionStep_ticks hlt hs
    rw [activeSession_of_step hlt hs]
    rcases hnext with hoffset | hclosed
    · have hwall : next.wall = cursor.wall + (next.instant - cursor.instant) := by
        simp only [DateTime.instant, hoffset]
        omega
      have hstop : next.wall + (closed.instant - next.instant) =
          cursor.wall + (closed.instant - cursor.instant) := by omega
      have hin : EndsInCalendar next closed := by
        rw [EndsInCalendar, hoffset]
        exact hend
      rw [ih hin, hstop, hwall]
      exact congrArg Except.ok hticks
    · rw [hclosed, activeSession_of_le le_rfl]
      rw [hclosed, ticks_of_le le_rfl] at hticks
      exact congrArg Except.ok hticks
  | case3 cursor hle =>
    rw [activeSession_of_le (by omega), ticks_of_le (by omega)]
    rfl

lemma addOrOverflow_error {d : DateTime} {delta : ℤ} {e : PyError} (h : addOrOverflow d delta = .error e) :
    e = .dateOverflow := by
  unfold addOrOverflow at h
  split at h
  · cases h
  · cases h
    rfl

lemma sessionStep_error {closed cursor : DateTime} {e : PyError} (h : sessionStep closed cursor = .error e) :
    e = .dateOverflow := by
  simp only [sessionStep] at h
  split at h
  · cases hm : nextWeekdayMidnight cursor with
    | ok d => rw [hm] at h; cases h
    | error e' =>
      rw [hm] at h
      cases h
      exact addOrOverflow_error hm
  · split at h
    · cases h
    · cases hm : nextSessionStart cursor with
      | ok d => rw [hm] at h; cases h
      | error e' =>
        rw [hm] at h
        cases h
        exact addOrOverflow_error hm

lemma addOrOverflow_wall {d d' : DateTime} {delta : ℤ} (h : addOrOverflow d delta = .ok d') :
    d'.offset = d.offset ∧ d'.wall = d.wall + delta ∧ d'.wall < DateTime.wallEnd := by
  simp only [addOrOverflow, DateTime.add?] at h
  split at h
  · rename_i d'' hd
    split at hd
    · cases hd
      cases h
      exact ⟨rfl, rfl, by omega⟩
    · cases hd
  · cases h

/-- A step towards a closing time in the last minute of the calendar, or behind it, does not reach it. -/
lemma sessionStep_short {closed cursor next : DateTime} {added : ℤ} (hwall : cursor.wall < DateTime.wallEnd)
    (hout : ¬ EndsInCalendar cursor closed) (h : sessionStep closed cursor = .ok (added, next)) :
    next.offset = cursor.offset ∧ next.wall < DateTime.wallEnd ∧ next.instant < closed.instant := by
  simp only [EndsInCalendar, minute_eq, DateTime.wallEnd, day_eq, not_le] at hout hwall ⊢
  simp only [sessionStep] at h
  split at h
  · rename_i hweekend
    simp only [DateTime.weekday, day_eq] at hweekend
    cases hm : nextWeekdayMidnight cursor with
    | error e => rw [hm] at h; cases h
    | ok d =>
      rw [hm] at h
      cases h
      have hne : (7 - cursor.weekday) % 7 ≠ 0 := by
        simp only [DateTime.weekday, day_eq]
        omega
      simp only [nextWeekdayMidnight, if_neg hne] at hm
      obtain ⟨hoffset, hd, hlast⟩ := addOrOverflow_wall hm
      simp only [DateTime.floorDay, DateTime.weekday, DateTime.wallEnd, day_eq] at hoffset hd hlast
      refine ⟨hoffset, hlast, ?_⟩
      simp only [DateTime.instant, hoffset] at hout ⊢
      omega
  · split at h
    · rename_i start stop hw
      have hmem := List.mem_of_find?_eq_some hw
      have hstop : stop ≤ 465 := by
        simp only [sessionWindowsUtc, List.mem_cons, Prod.mk.injEq, List.not_mem_nil, or_false] at hmem
        omega
      have hbefore : (cursor.atMinute stop).instant < closed.instant := by
        simp only [DateTime.atMinute, DateTime.instant, day_eq, minute_eq] at hout ⊢
        omega
      cases h
      rw [if_pos hbefore]
      refine ⟨rfl, ?_, hbefore⟩
      simp only [DateTime.atMinute, day_eq, minute_eq]
      omega
    · cases hm : nextSessionStart cursor with
      | error e => rw [hm] at h; cases h
      | ok d =>
        rw [hm] at h
        cases h
        obtain ⟨hoffset, hd, hlast⟩ := addOrOverflow_wall hm
        simp only [DateTime.floorMinute, DateTime.wallEnd, minute_eq, day_eq] at hoffset hd hlast
        refine ⟨hoffset, hlast, ?_⟩
        simp only [DateTime.instant, hoffset] at hout ⊢
        omega

/-- Any other walk that has to move ends at the end of the calendar. -/
theorem activeSession_error (closed cursor : DateTime) (hwall : cursor.wall < DateTime.wallEnd)
    (hlt : cursor.instant < closed.instant) (hout : ¬ EndsInCalendar cursor closed) :
    activeSession closed cursor = .error .dateOverflow := by
  induction cursor using activeSession.induct closed with
  | case1 cursor hlt' e hs =>
    rw [activeSession, dif_pos hlt']
    split
    · rename_i e' hs'
      exact congrArg Except.error (sessionStep_error hs')
    · rename_i hs'
      rw [hs] at hs'
      cases hs'
  | case2 cursor hlt' added next hs ih =>
    obtain ⟨hoffset, hwall', hshort⟩ := sessionStep_short hwall hout hs
    have hout' : ¬ EndsInCalendar next closed := by
      rw [EndsInCalendar, hoffset]
      exact hout
    rw [activeSession_of_step hlt' hs, ih hwall' hshort hout']
    rfl
  | case3 cursor hle => exact absurd hlt hle

/-! ## UTC -/

/-- A UTC value. -/
def IsUtc (d : DateTime) : Prop := d.offset = some 0

instance : DecidablePred IsUtc := fun d => inferInstanceAs (Decidable (d.offset = some 0))

lemma IsUtc.instant {d : DateTime} (h : IsUtc d) : d.instant = d.wall := by
  rw [DateTime.instant, h, Option.getD_some, Int.sub_zero]

lemma IsUtc.sub? {a b : DateTime} (ha : IsUtc a) (hb : IsUtc b) : a.sub? b = some (a.wall - b.wall) := by
  rw [DateTime.sub?_eq_some (by rw [DateTime.isAware, DateTime.isAware, ha, hb]), ha.instant, hb.instant]

/-- There is nothing to walk, or the walk ends before the last minute of the year 9999. -/
def EndsInTime (opened closed : DateTime) : Prop :=
  opened.wall = closed.wall ∨ closed.wall + DateTime.minute ≤ DateTime.wallEnd

instance (opened closed : DateTime) : Decidable (EndsInTime opened closed) :=
  inferInstanceAs (Decidable (_ ∨ _))

lemma activeSessionMicros_utc {opened closed : DateTime} (hopened : IsUtc opened) (hclosed : IsUtc closed)
    (hend : EndsInTime opened closed) :
    activeSessionMicros opened closed = .ok (ticks InSession opened.wall closed.wall) := by
  simp only [activeSessionMicros, hclosed.sub? hopened]
  split
  · rw [ticks_of_le (by omega)]
    rfl
  · have hin : EndsInCalendar opened closed := by
      have hlast : closed.wall + DateTime.minute ≤ DateTime.wallEnd := hend.resolve_left (by omega)
      rw [EndsInCalendar, hclosed.instant, hopened, Option.getD_some, Int.add_zero]
      exact hlast
    have hwall : opened.wall + (closed.wall - opened.wall) = closed.wall := by omega
    rw [activeSession_eq closed opened hin, hclosed.instant, hopened.instant, hwall]

/-- `active_session_seconds` is the session time between two UTC values: it adds up over a split point
and grows with the closing time. -/
theorem activeSessionMicros_measures {opened closed : DateTime} (hopened : IsUtc opened)
    (hclosed : IsUtc closed) (hend : EndsInTime opened closed) :
    activeSessionMicros opened closed = .ok (ticks InSession opened.wall closed.wall) ∧
      ∀ between, IsUtc between → opened.wall ≤ between.wall → between.wall ≤ closed.wall →
        ∃ before after, activeSessionMicros opened between = .ok before ∧
          activeSessionMicros between closed = .ok after ∧
          activeSessionMicros opened closed = .ok (before + after) ∧ 0 ≤ after := by
  have hwhole := activeSessionMicros_utc hopened hclosed hend
  refine ⟨hwhole, fun between hutc hfrom hto => ?_⟩
  have hfirst : EndsInTime opened between := by
    unfold EndsInTime at hend ⊢
    omega
  have hsecond : EndsInTime between closed := by
    unfold EndsInTime at hend ⊢
    omega
  have hsum := ticks_add (p := InSession) hfrom hto
  refine ⟨_, _, activeSessionMicros_utc hopened hutc hfirst, activeSessionMicros_utc hutc hclosed hsecond,
    ?_, Int.natCast_nonneg _⟩
  rw [hwhole, ← hsum, Nat.cast_add]

/-- The morning session of 2024-01-01. -/
def morning : DateTime × DateTime :=
  (⟨738885 * DateTime.day + 105 * DateTime.minute, some 0⟩,
    ⟨738885 * DateTime.day + 270 * DateTime.minute, some 0⟩)

theorem morning_measures :
    activeSessionMicros morning.1 morning.2 = .ok (ticks InSession morning.1.wall morning.2.wall) :=
  have hopened : IsUtc morning.1 := by decide
  have hclosed : IsUtc morning.2 := by decide
  (activeSessionMicros_measures hopened hclosed (by decide)).1

/-- 9999-12-31T23:59:00Z and half a minute later. -/
def lastMinute : DateTime × DateTime :=
  (⟨DateTime.wallEnd - DateTime.minute, some 0⟩,
    ⟨DateTime.wallEnd - 30 * DateTime.second, some 0⟩)

/-- In the last minute of the calendar there is no session time, and none is returned. -/
theorem lastMinute_overflows : IsUtc lastMinute.1 ∧ IsUtc lastMinute.2 ∧
    lastMinute.1.wall ≤ lastMinute.2.wall ∧
    activeSessionMicros lastMinute.1 lastMinute.2 = .error .dateOverflow := by
  refine ⟨by decide, by decide, by decide, ?_⟩
  have herror : activeSession lastMinute.2 lastMinute.1 = .error .dateOverflow :=
    activeSession_error _ _ (by decide) (by decide) (by unfold EndsInCalendar; decide)
  have hsub : lastMinute.2.sub? lastMinute.1 = some 30000000 := by decide
  simp only [activeSessionMicros, hsub]
  rw [if_neg (by decide), herror]

end PaperTrade.Worker
