import PaperTrade.Runtime.ValidTimes
import PaperTrade.Worker.Database
import PaperTrade.Worker.SessionTime

/-!
# Durations and offsets

A timestamp names an instant and the offset it is written with. The duration in a trade of
`close_position` depends on the instants alone (`closingTrade_offsets_iff`) except on `tcbs`, where the
session windows are compared with the clock fields of the opening as it is written. There the sessions
must look the same from the opening and from the closing time under every offset, and the end of the
calendar must be out of reach under all offsets or under none.
-/

namespace PaperTrade.Worker

open PaperTrade.Runtime

/-! ## Rewriting a timestamp -/

/-- The instant, written with the offset. -/
def shown (instant offset : ℤ) : DateTime := ⟨instant + offset, some offset⟩

lemma shown_instant (instant offset : ℤ) : (shown instant offset).instant = instant := by
  show instant + offset - offset = instant
  omega

lemma shown_sub? (opened closed v w : ℤ) :
    (shown closed w).sub? (shown opened v) = some (closed - opened) := by
  have haware : (shown closed w).isAware = (shown opened v).isAware := rfl
  rw [DateTime.sub?_eq_some haware, shown_instant, shown_instant]

/-- A timestamp of the instant. -/
def Denotes (s : String) (instant : ℤ) : Prop :=
  ∃ d, DateTime.parse s = some d ∧ d.isAware = true ∧ d.instant = instant

/-- The offsets that a timestamp of the instant can be written with. -/
def MayShow (instant offset : ℤ) : Prop :=
  offset.natAbs < 86400000000 ∧ 0 ≤ instant + offset ∧ instant + offset < DateTime.wallEnd

instance (instant offset : ℤ) : Decidable (MayShow instant offset) :=
  inferInstanceAs (Decidable (_ ∧ _))

lemma Denotes.shown {s : String} {instant : ℤ} (h : Denotes s instant) :
    ∃ offset, DateTime.parse s = some (shown instant offset) ∧ MayShow instant offset := by
  obtain ⟨⟨wall, offset⟩, hparse, haware, hinstant⟩ := h
  have hvalid := DateTime.parse_valid hparse
  obtain ⟨w, rfl⟩ : ∃ w, offset = some w := Option.isSome_iff_exists.mp haware
  have hwall : wall = instant + w := by
    simp only [DateTime.instant, Option.getD_some] at hinstant
    omega
  subst hwall
  exact ⟨w, hparse, hvalid.offset w rfl, hvalid.nonneg, hvalid.lt⟩

lemma MayShow.denotes {instant offset : ℤ} (h : MayShow instant offset) :
    ∃ s, Denotes s instant ∧ DateTime.parse s = some (Worker.shown instant offset) := by
  have hvalid : (Worker.shown instant offset).Valid :=
    ⟨h.2.1, h.2.2, fun o ho => by cases ho; exact h.1⟩
  have hparse := DateTime.parse_isoformat hvalid
  exact ⟨_, ⟨_, hparse, rfl, shown_instant _ _⟩, hparse⟩

/-- The offsets of an instant are the integers of an interval. -/
lemma mayShow_iff (instant offset : ℤ) : MayShow instant offset ↔
    max (-86399999999) (-instant) ≤ offset ∧ offset < min 86400000000 (DateTime.wallEnd - instant) := by
  unfold MayShow
  omega

/-! ## The duration of a trade -/

/-- The duration that `close_position` computes from the two timestamps. -/
def recordedDuration (openedAt closedAt exchange : String) : Except PyError PyFloat := do
  let opened ← isoTime openedAt
  let closed ← isoTime closedAt
  tradeDurationHours opened closed exchange

lemma recordedDuration_parsed {openedAt closedAt : String} {opened closed : DateTime}
    (hopened : DateTime.parse openedAt = some opened) (hclosed : DateTime.parse closedAt = some closed)
    (exchange : String) :
    recordedDuration openedAt closedAt exchange = tradeDurationHours opened closed exchange := by
  simp only [recordedDuration, isoTime, hopened, hclosed, bind, Except.bind]

/-- It is the duration in the trade. -/
lemma closingTrade_duration {pos : PositionRow} {entry exit closeQty : PyFloat}
    (hentry : pos.entryPrice = some entry) (reason closedAt tradeId : String) (closeMetadata : Text) :
    (closingTrade pos (some exit) closeQty reason closedAt closeMetadata tradeId).map (·.durationHours) =
      (recordedDuration pos.openedAt closedAt (exchangeOr pos.exchange)).map real := by
  simp only [closingTrade, recordedDuration, hentry, need, bind, Except.bind]
  cases isoTime pos.openedAt with
  | error e => rfl
  | ok opened =>
    cases isoTime closedAt with
    | error e => rfl
    | ok closed =>
      dsimp only
      cases tradeDurationHours opened closed (exchangeOr pos.exchange) <;> rfl

/-- The walk from the opening written with the offset ends in the calendar. -/
def Fits (closed offset : ℤ) : Prop := closed + offset + DateTime.minute ≤ DateTime.wallEnd

instance (closed offset : ℤ) : Decidable (Fits closed offset) := inferInstanceAs (Decidable (_ ≤ _))

/-- The sessions between two instants look the same under every offset: no two neighbouring offsets of
the opening differ in whether the walk stays in the calendar, and where it does both ends of it enter
and leave the sessions together. -/
def LooksAlike (opened closed : ℤ) : Prop :=
  ∀ offset, MayShow opened offset → MayShow opened (offset + 1) →
    (Fits closed (offset + 1) ↔ Fits closed offset) ∧
      (Fits closed offset → (InSession (opened + offset) ↔ InSession (closed + offset)))

/-- What counts of the time from an opening written with the offset, in microseconds. -/
noncomputable def counted (opened closed offset : ℤ) : Except PyError ℤ :=
  if Fits closed offset then .ok (ticks InSession (opened + offset) (closed + offset))
  else .error .dateOverflow

section
variable {opened closed offset : ℤ}

lemma counted_of_fits (h : Fits closed offset) :
    counted opened closed offset = .ok (ticks InSession (opened + offset) (closed + offset)) := if_pos h

lemma counted_of_not_fits (h : ¬ Fits closed offset) :
    counted opened closed offset = .error .dateOverflow := if_neg h

lemma activeSessionMicros_shown (hlt : opened < closed) (hshow : MayShow opened offset) (w : ℤ) :
    activeSessionMicros (shown opened offset) (shown closed w) = counted opened closed offset := by
  have hends : EndsInCalendar (shown opened offset) (shown closed w) ↔ Fits closed offset := by
    rw [EndsInCalendar, shown_instant]
    rfl
  simp only [activeSessionMicros, shown_sub?]
  rw [if_neg (by omega)]
  by_cases hfits : Fits closed offset
  · have hwall : (shown opened offset).wall + (closed - opened) = closed + offset := by
      show opened + offset + (closed - opened) = closed + offset
      omega
    rw [counted_of_fits hfits, activeSession_eq _ _ (hends.mpr hfits), shown_instant, shown_instant, hwall]
    rfl
  · have hwalk : (shown opened offset).instant < (shown closed w).instant := by
      rw [shown_instant, shown_instant]
      exact hlt
    rw [counted_of_not_fits hfits]
    exact activeSession_error _ _ hshow.2.2 hwalk (mt hends.mp hfits)

/-- One step of the offset changes nothing exactly if the two ends look the same. -/
lemma counted_succ_iff (hle : opened ≤ closed) :
    counted opened closed (offset + 1) = counted opened closed offset ↔
      (Fits closed (offset + 1) ↔ Fits closed offset) ∧
        (Fits closed offset → (InSession (opened + offset) ↔ InSession (closed + offset))) := by
  have hshift := ticks_shift_iff (p := InSession) (a := opened + offset) (b := closed + offset) (by omega)
  by_cases hfits : Fits closed offset <;> by_cases hnext : Fits closed (offset + 1)
  · rw [counted_of_fits hfits, counted_of_fits hnext, Except.ok.injEq, Nat.cast_inj, ← Int.add_assoc,
      ← Int.add_assoc, hshift]
    simp only [hfits, hnext, true_and, forall_const]
  · rw [counted_of_fits hfits, counted_of_not_fits hnext]
    simp only [hfits, hnext, reduceCtorEq, iff_true, false_and]
  · rw [counted_of_not_fits hfits, counted_of_fits hnext]
    simp only [hfits, hnext, reduceCtorEq, iff_false, not_true, false_and]
  · rw [counted_of_not_fits hfits, counted_of_not_fits hnext]
    simp only [hfits, hnext, true_and, false_implies]

end

/-- The sessions look alike if no two openings count differently. -/
lemma looksAlike_iff {opened closed : ℤ} (hle : opened ≤ closed) : LooksAlike opened closed ↔
    ∀ v w, MayShow opened v → MayShow opened w → counted opened closed v = counted opened closed w := by
  let lo := max (-86399999999) (-opened)
  let hi := min 86400000000 (DateTime.wallEnd - opened)
  have hconstant : (∀ v w, lo ≤ v → v < hi → lo ≤ w → w < hi →
      counted opened closed v = counted opened closed w) ↔
      ∀ v, lo ≤ v → v + 1 < hi → counted opened closed (v + 1) = counted opened closed v :=
    constant_on_iff
  constructor
  · intro halike v w hv hw
    rw [mayShow_iff] at hv hw
    refine hconstant.mpr (fun t hlow hhigh => ?_) v w hv.1 hv.2 hw.1 hw.2
    have hfrom : MayShow opened t := (mayShow_iff _ _).mpr ⟨hlow, by omega⟩
    have hto : MayShow opened (t + 1) := (mayShow_iff _ _).mpr ⟨by omega, hhigh⟩
    exact (counted_succ_iff hle).mpr (halike t hfrom hto)
  · intro hall t hfrom hto
    exact (counted_succ_iff hle).mp (hall _ _ hto hfrom)

/-! ## The law -/

/-- The opening and the closing time, their offsets aside, settle the duration. -/
def OffsetFree (opened closed : ℤ) (exchange : String) : Prop :=
  isTcbs exchange = false ∨ closed ≤ opened ∨ LooksAlike opened closed

section
variable {opened closed v w v' w' : ℤ} {exchange : String}

/-- Off `tcbs`, and backwards, only the instants count. -/
lemma duration_of_instants (h : isTcbs exchange = false ∨ closed ≤ opened) :
    tradeDurationHours (shown opened v) (shown closed w) exchange =
      tradeDurationHours (shown opened v') (shown closed w') exchange := by
  rcases h with hother | hback
  · simp only [tradeDurationHours, hother, shown_sub?, Bool.false_eq_true, if_false]
  · simp only [tradeDurationHours, activeSessionMicros, shown_sub?, if_pos (sub_nonpos.mpr hback)]

/-- The hours of the counted microseconds. -/
def hours (us : ℤ) : PyFloat := .fin ((us : ℚ) / 3600000000)

lemma hours_inj {a b : ℤ} : hours a = hours b ↔ a = b := by
  rw [hours, hours, PyFloat.fin.injEq, div_left_inj' (by norm_num), Int.cast_inj]

/-- On `tcbs` the duration is what the opening counts. -/
lemma duration_counted (htcbs : isTcbs exchange = true) (hlt : opened < closed) (hshow : MayShow opened v) :
    tradeDurationHours (shown opened v) (shown closed w) exchange = (counted opened closed v).map hours := by
  rw [tradeDurationHours, if_pos htcbs, activeSessionMicros_shown hlt hshow]
  cases counted opened closed v <;> rfl

lemma real_hours_inj {x y : Except PyError ℤ} :
    (x.map hours).map real = (y.map hours).map real ↔ x = y := by
  cases x <;> cases y <;>
    simp only [Except.map, hours, real_fin, Except.ok.injEq, Except.error.injEq, Option.some.injEq,
      reduceCtorEq]
  exact hours_inj

end

/-- The duration of a trade is the same under all offsets of the two timestamps if, and only if, the
exchange is not `tcbs`, the position closes no later than it opens, or the sessions look alike. -/
theorem closingTrade_offsets_iff {pos : PositionRow} {entry exit closeQty : PyFloat} {opened closed : ℤ}
    {closedAt : String} (hentry : pos.entryPrice = some entry) (hopened : Denotes pos.openedAt opened)
    (hclosed : Denotes closedAt closed) (reason tradeId : String) (closeMetadata : Text) :
    (∀ openedAt' closedAt', Denotes openedAt' opened → Denotes closedAt' closed →
      (closingTrade { pos with openedAt := openedAt' } (some exit) closeQty reason closedAt'
        closeMetadata tradeId).map (·.durationHours) =
      (closingTrade pos (some exit) closeQty reason closedAt closeMetadata tradeId).map
        (·.durationHours)) ↔
      OffsetFree opened closed (exchangeOr pos.exchange) := by
  obtain ⟨v, hv, hshow⟩ := hopened.shown
  obtain ⟨w, hw, -⟩ := hclosed.shown
  -- the trade and its rewritings record the duration of two shown instants
  have hrecord (openedAt' closedAt' : String) :
      (closingTrade { pos with openedAt := openedAt' } (some exit) closeQty reason closedAt'
        closeMetadata tradeId).map (·.durationHours) =
      (recordedDuration openedAt' closedAt' (exchangeOr pos.exchange)).map real :=
    have hentry' : ({ pos with openedAt := openedAt' } : PositionRow).entryPrice = some entry := hentry
    closingTrade_duration hentry' _ _ _ _
  rw [closingTrade_duration hentry, recordedDuration_parsed hv hw]
  simp only [hrecord]
  unfold OffsetFree
  by_cases hinstants : isTcbs (exchangeOr pos.exchange) = false ∨ closed ≤ opened
  · refine iff_of_true (fun openedAt' closedAt' ho hc => ?_) (by tauto)
    obtain ⟨v', hv', -⟩ := ho.shown
    obtain ⟨w', hw', -⟩ := hc.shown
    rw [recordedDuration_parsed hv' hw', duration_of_instants hinstants]
  · obtain ⟨htcbs, hlt⟩ := not_or.mp hinstants
    rw [Bool.not_eq_false] at htcbs
    rw [not_le] at hlt
    constructor
    · intro hsame
      refine .inr (.inr ((looksAlike_iff hlt.le).mpr fun u u' hu hu' => ?_))
      obtain ⟨s, hs, hparse⟩ := hu.denotes
      obtain ⟨s', hs', hparse'⟩ := hu'.denotes
      have hleft := hsame s closedAt hs hclosed
      have hright := hsame s' closedAt hs' hclosed
      rw [recordedDuration_parsed hparse hw, duration_counted htcbs hlt hu] at hleft
      rw [recordedDuration_parsed hparse' hw, duration_counted htcbs hlt hu'] at hright
      exact real_hours_inj.mp (hleft.trans hright.symm)
    · intro hfree openedAt' closedAt' ho hc
      have halike : LooksAlike opened closed := by
        rcases hfree with hother | hback | halike
        · exact absurd (.inl hother) hinstants
        · exact absurd (.inr hback) hinstants
        · exact halike
      obtain ⟨v', hv', hshow'⟩ := ho.shown
      obtain ⟨w', hw', -⟩ := hc.shown
      rw [recordedDuration_parsed hv' hw', duration_counted htcbs hlt hshow',
        duration_counted htcbs hlt hshow, (looksAlike_iff hlt.le).mp halike v' v hshow' hshow]

/-- A position that is open through the morning session of 2024-01-01. -/
def morningPosition (openedAt exchange : String) : PositionRow where
  positionId := "p"
  alphaId := "vn30"
  signalId := "s"
  symbol := "VN30F1M"
  side := "LONG"
  entryPrice := some 1200
  qty := some 1
  tp := none
  sl := none
  leverage := 1
  feePct := some 0
  metadata := .chars "{}"
  openedAt := openedAt
  exchange := exchange

/-- 2024-01-01T01:45 and 04:30 UTC. -/
def morningInstants : ℤ × ℤ :=
  (738885 * DateTime.day + 105 * DateTime.minute, 738885 * DateTime.day + 270 * DateTime.minute)

lemma denotes_opened : Denotes "2024-01-01T01:45:00+00:00" morningInstants.1 :=
  ⟨shown morningInstants.1 0, by decide +kernel, rfl, by decide⟩

lemma denotes_closed : Denotes "2024-01-01T04:30:00Z" morningInstants.2 :=
  ⟨shown morningInstants.2 0, by decide +kernel, rfl, by decide⟩

/-- On the clock of the exchange. -/
lemma parse_local : DateTime.parse "2024-01-01T08:45:00+07:00" =
    some (shown morningInstants.1 (7 * DateTime.hour)) := by decide +kernel

lemma denotes_local : Denotes "2024-01-01T08:45:00+07:00" morningInstants.1 :=
  ⟨_, parse_local, rfl, shown_instant _ _⟩

/-- On Binance the local spelling of the opening records the same trade. -/
theorem closingTrade_offsets_binance :
    (closingTrade (morningPosition "2024-01-01T08:45:00+07:00" "binance") (some 1210) 1 "TP"
      "2024-01-01T04:30:00Z" (.chars "{}") "t").map (·.durationHours) =
    (closingTrade (morningPosition "2024-01-01T01:45:00+00:00" "binance") (some 1210) 1 "TP"
      "2024-01-01T04:30:00Z" (.chars "{}") "t").map (·.durationHours) :=
  have hentry : (morningPosition "2024-01-01T01:45:00+00:00" "binance").entryPrice = some 1200 := rfl
  (closingTrade_offsets_iff hentry denotes_opened denotes_closed _ _ _).mpr (.inl (by decide)) _ _
    denotes_local denotes_closed

lemma morning_counted : counted morningInstants.1 morningInstants.2 0 = .ok 9900000000 := by
  have hall : (ticks InSession (morningInstants.1 + 0) (morningInstants.2 + 0) : ℤ) =
      morningInstants.2 + 0 - (morningInstants.1 + 0) :=
    ticks_of_forall (by decide) fun t hfrom hto => by
      simp only [morningInstants, day_eq, minute_eq] at hfrom hto
      rw [inSession_iff]
      omega
  have hlength : morningInstants.2 + 0 - (morningInstants.1 + 0) = 9900000000 := by decide
  rw [counted_of_fits (by decide), hall, hlength]

lemma local_counted : counted morningInstants.1 morningInstants.2 (7 * DateTime.hour) = .ok 0 := by
  have hnone : ticks InSession (morningInstants.1 + 7 * DateTime.hour)
      (morningInstants.2 + 7 * DateTime.hour) = 0 :=
    ticks_eq_zero fun t hfrom hto => by
      have hhour : DateTime.hour = 3600000000 := by decide
      simp only [morningInstants, day_eq, minute_eq, hhour] at hfrom hto
      rw [inSession_iff]
      omega
  rw [counted_of_fits (by decide), hnone]
  rfl

lemma morning_duration {openedAt : String} {offset us : ℤ}
    (hparse : DateTime.parse openedAt = some (shown morningInstants.1 offset))
    (hshow : MayShow morningInstants.1 offset)
    (hcounted : counted morningInstants.1 morningInstants.2 offset = .ok us) :
    (closingTrade (morningPosition openedAt "tcbs") (some 1210) 1 "TP" "2024-01-01T04:30:00Z"
      (.chars "{}") "t").map (·.durationHours) = .ok (some (hours us)) := by
  obtain ⟨w, hclosed, -⟩ := denotes_closed.shown
  have hrecorded : recordedDuration openedAt "2024-01-01T04:30:00Z" "tcbs" = .ok (hours us) := by
    rw [recordedDuration_parsed hparse hclosed, duration_counted (by decide) (by decide) hshow, hcounted]
    rfl
  rw [closingTrade_duration rfl]
  show (recordedDuration openedAt "2024-01-01T04:30:00Z" "tcbs").map real = _
  rw [hrecorded]
  rfl

/-- The morning session counts for 2.75 hours in UTC, and for none on the clock of the exchange. -/
theorem morning_depends_on_offset :
    Denotes "2024-01-01T01:45:00+00:00" morningInstants.1 ∧
      Denotes "2024-01-01T08:45:00+07:00" morningInstants.1 ∧
      (closingTrade (morningPosition "2024-01-01T01:45:00+00:00" "tcbs") (some 1210) 1 "TP"
        "2024-01-01T04:30:00Z" (.chars "{}") "t").map (·.durationHours) =
        .ok (some (.fin (11 / 4))) ∧
      (closingTrade (morningPosition "2024-01-01T08:45:00+07:00" "tcbs") (some 1210) 1 "TP"
        "2024-01-01T04:30:00Z" (.chars "{}") "t").map (·.durationHours) = .ok (some (.fin 0)) := by
  have hutc : DateTime.parse "2024-01-01T01:45:00+00:00" = some (shown morningInstants.1 0) := by
    decide +kernel
  have hquarter : hours 9900000000 = .fin (11 / 4) := by
    rw [hours, PyFloat.fin.injEq]
    norm_num
  have hzero : hours 0 = .fin 0 := by
    rw [hours, PyFloat.fin.injEq]
    norm_num
  refine ⟨denotes_opened, denotes_local, ?_, ?_⟩
  · rw [morning_duration hutc (by decide) morning_counted, hquarter]
  · rw [morning_duration parse_local (by decide) local_counted, hzero]

end PaperTrade.Worker
