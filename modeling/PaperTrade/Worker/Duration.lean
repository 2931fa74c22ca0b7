import PaperTrade.Runtime.DateTime
import PaperTrade.Worker.Tables

/-!
# Holding times

`trade_duration_hours`: wall-clock hours, except on `tcbs`, where only the minutes inside the
sessions of the VN derivatives market count. `active_session_seconds` walks a cursor from the
opening to the closing time; every step moves it forward, which is what makes the walk end, and the
only thing that can stop it is the end of the calendar (`activeSession_ok`).
-/

namespace PaperTrade.Worker

open PaperTrade.Runtime

/-- Session start and end in minutes of the UTC day. -/
def sessionWindowsUtc : List (ℤ × ℤ) := [(1 * 60 + 45, 4 * 60 + 30), (6 * 60, 7 * 60 + 45)]

/-- `instant + timedelta`, raising past the year 9999. -/
def addOrOverflow (d : DateTime) (delta : ℤ) : Except PyError DateTime :=
  match d.add? delta with
  | some d' => .ok d'
  | none => .error .dateOverflow

/-- `_next_weekday_midnight`. -/
def nextWeekdayMidnight (instant : DateTime) : Except PyError DateTime :=
  let days := if (7 - instant.weekday) % 7 = 0 then 7 else (7 - instant.weekday) % 7
  addOrOverflow instant.floorDay (days * DateTime.day)

/-- `_next_session_start`. -/
def nextSessionStart (instant : DateTime) : Except PyError DateTime :=
  addOrOverflow instant.floorMinute DateTime.minute

/-- One round of the loop of `active_session_seconds`: the microseconds it adds and the next
cursor. -/
def sessionStep (closed cursor : DateTime) : Except PyError (ℤ × DateTime) :=
  if 5 ≤ cursor.weekday then (nextWeekdayMidnight cursor).map (0, ·)
  else
    let inside := fun (w : ℤ × ℤ) => cursor.minuteOfDay < w.2 ∧ w.1 ≤ cursor.minuteOfDay
    match sessionWindowsUtc.find? inside with
    | some (_, stop) =>
      let sessionEnd := cursor.atMinute stop
      let segmentEnd := if sessionEnd.instant < closed.instant then sessionEnd else closed
      .ok (max (segmentEnd.instant - cursor.instant) 0, segmentEnd)
    | none => (nextSessionStart cursor).map (0, ·)

lemma day_eq : DateTime.day = 86400000000 := by decide
lemma minute_eq : DateTime.minute = 60000000 := by decide

lemma addOrOverflow_instant {d d' : DateTime} {delta : ℤ} (h : addOrOverflow d delta = .ok d') :
    d'.instant = d.instant + delta := by
  simp only [addOrOverflow, DateTime.add?] at h
  split at h
  · rename_i d'' hd
    split at hd
    · cases hd
      cases h
      simp only [DateTime.instant]
      omega
    · cases hd
  · cases h

/-- The cursor moves forward. -/
lemma sessionStep_lt {closed cursor next : DateTime} {added : ℤ}
    (hlt : cursor.instant < closed.instant) (h : sessionStep closed cursor = .ok (added, next)) :
    cursor.instant < next.instant := by
  have hday : 0 ≤ cursor.wall % 86400000000 ∧ cursor.wall % 86400000000 < 86400000000 := by omega
  simp only [sessionStep] at h
  split at h
  · cases hm : nextWeekdayMidnight cursor with
    | error e => rw [hm] at h; cases h
    | ok d =>
      rw [hm] at h
      cases h
      have hd := addOrOverflow_instant hm
      simp only [DateTime.floorDay, DateTime.instant, day_eq] at hd ⊢
      split at hd <;> omega
  · split at h
    · rename_i w stop hw
      have hin := List.find?_some hw
      simp only [decide_eq_true_eq, DateTime.minuteOfDay, day_eq, minute_eq] at hin
      cases h
      split
      · simp only [DateTime.atMinute, DateTime.instant, day_eq, minute_eq]
        omega
      · exact hlt
    · cases hm : nextSessionStart cursor with
      | error e => rw [hm] at h; cases h
      | ok d =>
        rw [hm] at h
        cases h
        have hd := addOrOverflow_instant hm
        simp only [DateTime.floorMinute, DateTime.instant, minute_eq] at hd ⊢
        omega

/-- The loop of `active_session_seconds`, in microseconds. -/
def activeSession (closed cursor : DateTime) : Except PyError ℤ :=
  if _hlt : cursor.instant < closed.instant then
    match _hs : sessionStep closed cursor with
    | .error e => .error e
    | .ok (added, next) => (activeSession closed next).map (added + ·)
  else .ok 0
termination_by (closed.instant - cursor.instant).toNat
decreasing_by
  have := sessionStep_lt _hlt _hs
  omega

/-- `active_session_seconds`, in microseconds. -/
def activeSessionMicros (opened closed : DateTime) : Except PyError ℤ :=
  match closed.sub? opened with
  | none => .error .naiveAndAware
  | some d => if d ≤ 0 then .ok 0 else activeSession closed opened

/-- `exchange and exchange.lower() == "tcbs"`. -/
def isTcbs (exchange : String) : Bool := lower exchange = ['t', 'c', 'b', 's']

/-- `trade_duration_hours`. -/
def tradeDurationHours (opened closed : DateTime) (exchange : String) : Except PyError PyFloat :=
  if isTcbs exchange then
    (activeSessionMicros opened closed).map fun us => .fin (us / 3600000000)
  else
    match closed.sub? opened with
    | none => .error .naiveAndAware
    | some us => .ok (.fin ((max us 0 : ℤ) / 3600000000))

/-! ## The calendar is the only limit -/

/-- The walk from `opened` to `closed` stays inside the calendar. -/
def EndsInCalendar (opened closed : DateTime) : Prop :=
  closed.instant + opened.offset.getD 0 + DateTime.minute ≤ DateTime.wallEnd

lemma addOrOverflow_ok {d : DateTime} {delta : ℤ} (h : d.wall + delta < DateTime.wallEnd) :
    addOrOverflow d delta = .ok { d with wall := d.wall + delta } := by
  simp [addOrOverflow, DateTime.add?, h]

lemma sessionStep_ok {closed cursor : DateTime} (hlt : cursor.instant < closed.instant)
    (hend : EndsInCalendar cursor closed) :
    ∃ added next, sessionStep closed cursor = .ok (added, next) ∧
      (next = closed ∨ next.offset = cursor.offset) := by
  have hwall : cursor.wall + 60000000 < 3652059 * 86400000000 := by
    simp only [EndsInCalendar, DateTime.instant, minute_eq, DateTime.wallEnd, day_eq] at hlt hend
    omega
  simp only [sessionStep]
  split
  · rename_i hweekend
    simp only [DateTime.weekday, day_eq] at hweekend
    refine ⟨0, { cursor.floorDay with
      wall := cursor.floorDay.wall + (7 - cursor.weekday) % 7 * DateTime.day }, ?_, .inr rfl⟩
    have hne : (7 - cursor.weekday) % 7 ≠ 0 := by
      simp only [DateTime.weekday, day_eq]
      omega
    simp only [nextWeekdayMidnight, if_neg hne]
    rw [addOrOverflow_ok]
    · rfl
    · simp only [DateTime.floorDay, DateTime.weekday, DateTime.wallEnd, day_eq]
      omega
  · split
    · refine ⟨_, _, rfl, ?_⟩
      split
      · exact .inr rfl
      · exact .inl rfl
    · refine ⟨0, { cursor.floorMinute with wall := cursor.floorMinute.wall + DateTime.minute },
        ?_, .inr rfl⟩
      simp only [nextSessionStart]
      rw [addOrOverflow_ok]
      · rfl
      · simp only [DateTime.floorMinute, DateTime.wallEnd, minute_eq, day_eq]
        omega

lemma activeSession_ok (closed cursor : DateTime) (hend : EndsInCalendar cursor closed) :
    ∃ us, activeSession closed cursor = .ok us := by
  induction cursor using activeSession.induct closed with
  | case1 cursor hlt e hs =>
    obtain ⟨added, next, hok, -⟩ := sessionStep_ok hlt hend
    rw [hok] at hs
    cases hs
  | case2 cursor hlt added next hs ih =>
    obtain ⟨added', next', hok, hnext⟩ := sessionStep_ok hlt hend
    rw [hok] at hs
    cases hs
    have hus : ∃ us, activeSession closed next = .ok us := by
      rcases hnext with hclosed | hoff
      · exact ⟨0, by rw [hclosed, activeSession, dif_neg (lt_irrefl _)]⟩
      · exact ih (by rw [EndsInCalendar, hoff]; exact hend)
    obtain ⟨us, hus⟩ := hus
    refine ⟨added + us, ?_⟩
    rw [activeSession, dif_pos hlt]
    split
    · rename_i h
      rw [hok] at h
      cases h
    · rename_i h
      rw [hok] at h
      cases h
      rw [hus]
      rfl
  | case3 cursor hle => exact ⟨0, by rw [activeSession, dif_neg hle]⟩

/-- Two values of one kind have a holding time, on `tcbs` as long as the calendar reaches. -/
theorem tradeDurationHours_ok {opened closed : DateTime} {exchange : String}
    (hkind : closed.isAware = opened.isAware)
    (hend : isTcbs exchange = true → EndsInCalendar opened closed) :
    ∃ x, tradeDurationHours opened closed exchange = .ok x := by
  simp only [tradeDurationHours, activeSessionMicros, DateTime.sub?_eq_some hkind]
  split
  · rename_i h
    split
    · exact ⟨_, rfl⟩
    · obtain ⟨us, hus⟩ := activeSession_ok closed opened (hend h)
      exact ⟨_, by rw [hus]; rfl⟩
  · exact ⟨_, rfl⟩

end PaperTrade.Worker
