import PaperTrade.Runtime.DateTime

/-!
# `datetime.isoformat`

The date is counted back from the day number in cycles of 400, 100 and 4 years, as the reference
implementation does it; the fraction of a second is left out where it is zero, and so are the seconds of
an offset. `fromisoformat` reads every such string back (`parse_isoformat`).
-/

namespace PaperTrade.Runtime.DateTime

/-! ## The calendar backwards -/

/-- The year of a day since 0001-01-01. -/
def yearOf (n : ℕ) : ℕ :=
  let r := n % 146097
  let centuries := min 3 (r / 36524)
  let r := r - centuries * 36524
  n / 146097 * 400 + centuries * 100 + r / 1461 * 4 + min 3 (r % 1461 / 365) + 1

/-- `d.timetuple().tm_yday - 1`. -/
def dayOfYear (n : ℕ) : ℕ := n - daysBeforeYear (yearOf n)

/-- The months of the year that have begun. -/
def monthOf (n : ℕ) : ℕ :=
  ((List.range 12).filter fun m => daysBeforeMonth (yearOf n) (m + 1) ≤ dayOfYear n).length

def dayOfMonth (n : ℕ) : ℕ := dayOfYear n - daysBeforeMonth (yearOf n) (monthOf n) + 1

lemma daysBeforeYear_cycles {a b c d : ℕ} (hb : b ≤ 3) (hc : c ≤ 24) (hd : d ≤ 3) :
    daysBeforeYear (a * 400 + b * 100 + c * 4 + d + 1) =
      a * 146097 + b * 36524 + c * 1461 + d * 365 := by
  have h4 : (a * 400 + b * 100 + c * 4 + d) / 4 = a * 100 + b * 25 + c := by omega
  have h100 : (a * 400 + b * 100 + c * 4 + d) / 100 = a * 4 + b := by omega
  have h400 : (a * 400 + b * 100 + c * 4 + d) / 400 = a := by omega
  unfold daysBeforeYear
  rw [Nat.add_sub_cancel]
  dsimp only
  rw [h4, h100, h400]
  omega

/-- The days of a year. -/
def yearLength (year : ℕ) : ℕ := if isLeap year then 366 else 365

/-- Three whole periods at most are counted; what is left is less than one, or one day more. -/
lemma rest_of_min {r period extra : ℕ} (hextra : extra ≤ period) (hr : r < 4 * period + extra) :
    min 3 (r / period) * period ≤ r ∧ (r - min 3 (r / period) * period < period ∨
      min 3 (r / period) = 3 ∧ r - 3 * period < period + extra) := by
  rcases le_or_gt (r / period) 2 with h | h
  · have hpos : 0 < period := by omega
    have hmod := Nat.mod_lt r hpos
    have hdiv := Nat.div_add_mod' r period
    rw [min_eq_right (by omega)]
    exact ⟨by omega, .inl (by omega)⟩
  · have hle : 3 * period ≤ r := (Nat.le_div_iff_mul_le (by omega)).mp h
    rw [min_eq_left h]
    exact ⟨hle, .inr ⟨rfl, by omega⟩⟩

/-- Where a day lies in the cycles; a year of 366 days is the last of its four. -/
lemma exists_cycles (n : ℕ) : ∃ a b c d, b ≤ 3 ∧ c ≤ 24 ∧ d ≤ 3 ∧
    yearOf n = a * 400 + b * 100 + c * 4 + d + 1 ∧
    ∃ day, n = a * 146097 + b * 36524 + c * 1461 + d * 365 + day ∧
      (day < 365 ∨ day = 365 ∧ d = 3 ∧ (c ≤ 23 ∨ b = 3)) := by
  have hr : n % 146097 < 4 * 36524 + 1 := Nat.mod_lt n (by decide)
  have hn := Nat.div_add_mod' n 146097
  obtain ⟨hb, hx⟩ := rest_of_min (by decide) hr
  obtain ⟨x, hxr⟩ : ∃ x, x = n % 146097 - min 3 (n % 146097 / 36524) * 36524 := ⟨_, rfl⟩
  have hy : x % 1461 < 4 * 365 + 1 := Nat.mod_lt x (by decide)
  have hc := Nat.div_add_mod' x 1461
  obtain ⟨hd, hz⟩ := rest_of_min (by decide) hy
  refine ⟨n / 146097, min 3 (n % 146097 / 36524), x / 1461, min 3 (x % 1461 / 365), min_le_left _ _, ?_,
    min_le_left _ _, ?_, x % 1461 - min 3 (x % 1461 / 365) * 365, ?_, ?_⟩
  · generalize min 3 (n % 146097 / 36524) = b at *
    omega
  · unfold yearOf
    rw [hxr]
  · generalize min 3 (n % 146097 / 36524) = b at *
    generalize min 3 (x % 1461 / 365) = d at *
    omega
  · generalize min 3 (n % 146097 / 36524) = b at *
    generalize min 3 (x % 1461 / 365) = d at *
    omega

/-- A day lies in its year. -/
lemma yearOf_spec (n : ℕ) :
    daysBeforeYear (yearOf n) ≤ n ∧ n < daysBeforeYear (yearOf n) + yearLength (yearOf n) := by
  obtain ⟨a, b, c, d, hb, hc, hd, hyear, day, hn, hday⟩ := exists_cycles n
  have hlong : 365 ≤ yearLength (yearOf n) := by
    unfold yearLength
    split <;> omega
  rw [show daysBeforeYear (yearOf n) = a * 146097 + b * 36524 + c * 1461 + d * 365 by
    rw [hyear]
    exact daysBeforeYear_cycles hb hc hd]
  rcases hday with hday | ⟨hday, hthree, hcycle⟩
  · exact ⟨by omega, by omega⟩
  · have hleap : isLeap (yearOf n) = true := by
      rw [hyear, hthree]
      clear hyear hn hlong hday
      unfold isLeap
      rw [decide_eq_true_eq]
      omega
    have hlength : yearLength (yearOf n) = 366 := if_pos hleap
    exact ⟨by omega, by omega⟩

/-- The months of a year follow each other without a gap. -/
lemma month_spec (year : ℕ) {day : ℕ} (h : day < yearLength year) (month : ℕ)
    (hmonth : month = ((List.range 12).filter fun m =>
      daysBeforeMonth year (m + 1) ≤ day).length) :
    1 ≤ month ∧ month ≤ 12 ∧ daysBeforeMonth year month ≤ day ∧
      day < daysBeforeMonth year month + daysInMonth year month := by
  subst hmonth
  revert day
  unfold yearLength daysBeforeMonth daysInMonth
  generalize isLeap year = leap
  cases leap
  · decide +kernel
  · decide +kernel

/-- The date of a day is that day. -/
theorem ofCalendar?_yearOf {n : ℕ} :
    ofCalendar? (yearOf n) (monthOf n) (dayOfMonth n) = some n := by
  obtain ⟨hle, hlt⟩ := yearOf_spec n
  have hday : dayOfYear n < yearLength (yearOf n) := by
    unfold dayOfYear
    omega
  obtain ⟨hone, htwelve, hbefore, hafter⟩ := month_spec (yearOf n) hday (monthOf n) rfl
  have hyear : 1 ≤ yearOf n := Nat.succ_le_succ (Nat.zero_le _)
  unfold ofCalendar? dayOfMonth
  rw [if_pos ⟨hyear, hone, htwelve, by omega, by omega⟩]
  unfold dayOfYear at hbefore ⊢
  congr 1
  omega

/-- The year of a `datetime` has four digits. -/
lemma yearOf_lt {n : ℕ} (h : n < 3652059) : yearOf n < 10000 := by
  obtain ⟨hle, -⟩ := yearOf_spec n
  by_contra hlarge
  unfold daysBeforeYear at hle
  dsimp only at hle
  omega

lemma monthOf_le (n : ℕ) : monthOf n ≤ 12 := by
  unfold monthOf
  exact (List.length_filter_le _ _).trans_eq List.length_range

lemma dayOfMonth_le (n : ℕ) : dayOfMonth n ≤ 31 := by
  have h := ofCalendar?_yearOf (n := n)
  unfold ofCalendar? at h
  split at h
  · rename_i hdate
    have hmonth : daysInMonth (yearOf n) (monthOf n) ≤ 31 := by
      unfold daysInMonth
      split
      · split <;> decide
      · split <;> decide
    exact hdate.2.2.2.2.trans hmonth
  · cases h

/-! ## Digits -/

/-- `f"{v:0{n}d}"`. -/
def padDigits : ℕ → ℕ → List Char
  | 0, _ => []
  | n + 1, v => Nat.digitChar (v / 10 ^ n) :: padDigits n (v % 10 ^ n)

lemma digit?_digitChar {d : ℕ} (h : d < 10) : digit? (Nat.digitChar d) = some d := by
  have hall : ∀ d < 10, digit? (Nat.digitChar d) = some d := by decide
  exact hall d h

@[simp] lemma length_padDigits (n v : ℕ) : (padDigits n v).length = n := by
  induction n generalizing v with
  | zero => rfl
  | succ n ih => exact congrArg Nat.succ (ih _)

lemma isDigit_of_mem_padDigits {n v : ℕ} (h : v < 10 ^ n) {c : Char} (hc : c ∈ padDigits n v) :
    isDigit c = true := by
  induction n generalizing v with
  | zero => cases hc
  | succ n ih =>
    rcases List.mem_cons.mp hc with rfl | hc
    · have hlt : v / 10 ^ n < 10 := Nat.div_lt_of_lt_mul h
      unfold isDigit
      rw [digit?_digitChar hlt]
      rfl
    · exact ih (Nat.mod_lt v (pow_pos (by decide) n)) hc

/-- The digits of a number are read back. -/
lemma takeDigits_padDigits {n v : ℕ} (h : v < 10 ^ n) (rest : List Char) :
    takeDigits n (padDigits n v ++ rest) = some (v, rest) := by
  induction n generalizing v with
  | zero =>
    obtain rfl : v = 0 := by omega
    rfl
  | succ n ih =>
    have hlt : v / 10 ^ n < 10 := Nat.div_lt_of_lt_mul h
    have hrest := ih (Nat.mod_lt v (pow_pos (by decide) n))
    rw [padDigits, List.cons_append, takeDigits, digit?_digitChar hlt, hrest]
    change some (v / 10 ^ n * 10 ^ n + v % 10 ^ n, rest) = _
    rw [Nat.div_add_mod']

/-! ## The text -/

/-- The fraction of a second. -/
def fractionText (us : ℕ) : List Char := if us = 0 then [] else '.' :: padDigits 6 us

/-- `HH:MM:SS[.ffffff]`. -/
def clockText (h m sec us : ℕ) : List Char :=
  padDigits 2 h ++ ':' :: (padDigits 2 m ++ ':' :: (padDigits 2 sec ++ fractionText us))

/-- `HH:MM[:SS[.ffffff]]`. -/
def offsetText (h m sec us : ℕ) : List Char :=
  if sec = 0 ∧ us = 0 then padDigits 2 h ++ ':' :: padDigits 2 m else clockText h m sec us

/-- The text of a time of day or of an offset. -/
def splitClock (text : ℕ → ℕ → ℕ → ℕ → List Char) (us : ℕ) : List Char :=
  text (us / 3600000000) (us / 60000000 % 60) (us / 1000000 % 60) (us % 1000000)

/-- `YYYY-MM-DD`. -/
def dateText (n : ℕ) : List Char :=
  padDigits 4 (yearOf n) ++ '-' :: (padDigits 2 (monthOf n) ++ '-' :: padDigits 2 (dayOfMonth n))

/-- The offset, with its sign. -/
def zoneText : Option ℤ → List Char
  | none => []
  | some offset => (if offset < 0 then '-' else '+') :: splitClock offsetText offset.natAbs

/-- `d.isoformat()`. -/
def isoformat (d : DateTime) : String :=
  String.ofList (dateText (d.wall / day).toNat ++
    'T' :: (splitClock clockText (d.wall % day).toNat ++ zoneText d.offset))

example : isoformat ⟨63839667600000000, some 0⟩ = "2024-01-01T01:00:00+00:00" := by decide +kernel
example : isoformat ⟨63839667600000001, some (-19800000000)⟩ =
    "2024-01-01T01:00:00.000001-05:30" := by decide +kernel

/-! ## Reading it back -/

/-- What a `datetime` can hold. -/
structure Valid (d : DateTime) : Prop where
  nonneg : 0 ≤ d.wall
  lt : d.wall < wallEnd
  offset : ∀ offset, d.offset = some offset → offset.natAbs < 86400000000

lemma parseFraction_padDigits {us : ℕ} (h : us < 1000000) :
    parseFraction (padDigits 6 us) = some (us : ℤ) := by
  have hne : padDigits 6 us ≠ [] := by
    intro hnil
    exact absurd (congrArg List.length hnil) (by simp)
  have hall : (padDigits 6 us).all isDigit = true :=
    List.all_eq_true.mpr fun c hc => isDigit_of_mem_padDigits h hc
  have hkept : (padDigits 6 us).take 6 = padDigits 6 us :=
    List.take_of_length_le (length_padDigits 6 us).le
  have hread := takeDigits_padDigits (n := 6) h []
  rw [List.append_nil] at hread
  unfold parseFraction
  rw [if_neg (by simp [hne, hall]), hkept]
  dsimp only
  rw [length_padDigits, hread]
  simp

/-- The end of a clock: nothing or a fraction. -/
lemma parse_fractionText {us : ℕ} (hus : us < 1000000) (h m sec : ℕ) :
    (match fractionText us with
      | [] => some (h, m, sec, (0 : ℤ))
      | '.' :: frac | ',' :: frac => (parseFraction frac).map fun us => (h, m, sec, us)
      | _ => none) = some (h, m, sec, (us : ℤ)) := by
  unfold fractionText
  by_cases hzero : us = 0
  · rw [if_pos hzero, hzero]
    rfl
  · rw [if_neg hzero]
    simp only [parseFraction_padDigits hus, Option.map_some]

lemma parseClock_clockText {h m sec us : ℕ} (hh : h < 100) (hm : m < 100) (hsec : sec < 100)
    (hus : us < 1000000) : parseClock (clockText h m sec us) = some (h, m, sec, (us : ℤ)) := by
  unfold parseClock clockText
  simp only [takeDigits_padDigits (n := 2) hh, takeDigits_padDigits (n := 2) hm,
    takeDigits_padDigits (n := 2) hsec, bind, Option.bind]
  exact parse_fractionText hus h m sec

lemma parseClock_offsetText {h m sec us : ℕ} (hh : h < 100) (hm : m < 100) (hsec : sec < 100)
    (hus : us < 1000000) : parseClock (offsetText h m sec us) = some (h, m, sec, (us : ℤ)) := by
  unfold offsetText
  split
  · rename_i hzero
    have hread := takeDigits_padDigits (n := 2) hm []
    rw [List.append_nil] at hread
    unfold parseClock
    simp only [takeDigits_padDigits (n := 2) hh, hread, bind, Option.bind]
    rw [hzero.1, hzero.2]
    rfl
  · exact parseClock_clockText hh hm hsec hus

lemma isDigit_ne {c : Char} (hc : isDigit c = true) : c ≠ '-' ∧ c ≠ '+' ∧ c ≠ 'Z' := by
  refine ⟨?_, ?_, ?_⟩
  all_goals
    rintro rfl
    exact absurd hc (by decide)

/-- A character of a clock. -/
lemma clockText_chars {h m sec us : ℕ} (hh : h < 100) (hm : m < 100) (hsec : sec < 100)
    (hus : us < 1000000) {c : Char} (hc : c ∈ clockText h m sec us) :
    c ≠ '-' ∧ c ≠ '+' ∧ c ≠ 'Z' := by
  have hcolon : ':' ≠ '-' ∧ ':' ≠ '+' ∧ ':' ≠ 'Z' := by decide
  have hdot : '.' ≠ '-' ∧ '.' ≠ '+' ∧ '.' ≠ 'Z' := by decide
  unfold clockText fractionText at hc
  simp only [List.mem_append, List.mem_cons] at hc
  rcases hc with hc | rfl | hc | rfl | hc | hc
  · exact isDigit_ne (isDigit_of_mem_padDigits hh hc)
  · exact hcolon
  · exact isDigit_ne (isDigit_of_mem_padDigits hm hc)
  · exact hcolon
  · exact isDigit_ne (isDigit_of_mem_padDigits hsec hc)
  · split at hc
    · cases hc
    · rcases List.mem_cons.mp hc with rfl | hc
      · exact hdot
      · exact isDigit_ne (isDigit_of_mem_padDigits hus hc)

/-- The hours, minutes, seconds and the fraction of a day are in range. -/
lemma splitClock_parts {us : ℕ} (hus : us < 86400000000) : us / 3600000000 < 24 ∧
    us / 60000000 % 60 < 60 ∧ us / 1000000 % 60 < 60 ∧ us % 1000000 < 1000000 := by
  omega

lemma splitClock_chars {us : ℕ} (hus : us < 86400000000) {c : Char}
    (hc : c ∈ splitClock clockText us) : c ≠ '-' ∧ c ≠ '+' ∧ c ≠ 'Z' := by
  obtain ⟨hh, hm, hsec, hfrac⟩ := splitClock_parts hus
  exact clockText_chars (by omega) (by omega) (by omega) hfrac hc

/-- The parts of a time of day make it up. -/
lemma splitClock_sum (us : ℕ) :
    (us / 3600000000 : ℕ) * hour + (us / 60000000 % 60 : ℕ) * minute +
      (us / 1000000 % 60 : ℕ) * second + ((us % 1000000 : ℕ) : ℤ) = us := by
  unfold hour minute second
  omega

lemma parseTime_text {us : ℕ} (hus : us < 86400000000) {offset : Option ℤ}
    (hoffset : ∀ o, offset = some o → o.natAbs < 86400000000) :
    parseTime (splitClock clockText us ++ zoneText offset) = some ((us : ℤ), offset) := by
  obtain ⟨hh, hm, hsec, hfrac⟩ := splitClock_parts hus
  have hchars : ∀ c ∈ splitClock clockText us, decide (c ≠ '-' ∧ c ≠ '+' ∧ c ≠ 'Z') = true :=
    fun c hc => decide_eq_true (splitClock_chars hus hc)
  have hzone : (zoneText offset).takeWhile (fun c => decide (c ≠ '-' ∧ c ≠ '+' ∧ c ≠ 'Z')) = [] := by
    cases offset with
    | none => rfl
    | some o =>
      change List.takeWhile _ ((if o < 0 then '-' else '+') :: splitClock offsetText o.natAbs) = []
      split <;> rfl
  have hclock : (splitClock clockText us ++ zoneText offset).takeWhile
      (fun c => decide (c ≠ '-' ∧ c ≠ '+' ∧ c ≠ 'Z')) = splitClock clockText us := by
    rw [List.takeWhile_append_of_pos hchars, hzone, List.append_nil]
  have hread : parseClock (splitClock clockText us) = some (us / 3600000000, us / 60000000 % 60,
      us / 1000000 % 60, ((us % 1000000 : ℕ) : ℤ)) :=
    parseClock_clockText (by omega) (by omega) (by omega) hfrac
  have hrange : ¬ (24 ≤ us / 3600000000 ∨ 60 ≤ us / 60000000 % 60 ∨ 60 ≤ us / 1000000 % 60) := by
    omega
  unfold parseTime
  simp only [hclock, List.drop_left, hread, bind, Option.bind, if_neg hrange, splitClock_sum]
  cases hoff : offset with
  | none => rfl
  | some o =>
    obtain ⟨hh, hm, hsec, hfrac⟩ := splitClock_parts (hoffset o hoff)
    have hread : parseClock (splitClock offsetText o.natAbs) = some (o.natAbs / 3600000000,
        o.natAbs / 60000000 % 60, o.natAbs / 1000000 % 60, ((o.natAbs % 1000000 : ℕ) : ℤ)) :=
      parseClock_offsetText (by omega) (by omega) (by omega) hfrac
    have hday : ¬ day ≤ (o.natAbs : ℤ) := by
      have := hoffset o hoff
      unfold day hour minute second
      omega
    have htext : zoneText (some o) = (if o < 0 then '-' else '+') :: splitClock offsetText o.natAbs :=
      rfl
    simp only [htext]
    split
    · rename_i heq
      cases heq
    · rename_i heq
      have hsign := (List.cons.inj heq).1
      split at hsign <;> exact absurd hsign (by decide)
    · rename_i sign zone _ heq
      obtain ⟨hsign, rfl⟩ := List.cons.inj heq
      have habs : (if sign = '-' then -(o.natAbs : ℤ) else o.natAbs) = o := by
        rw [← hsign]
        by_cases hneg : o < 0
        · rw [if_pos hneg, if_pos rfl]
          omega
        · rw [if_neg hneg, if_neg (by decide)]
          omega
      simp only [hread, splitClock_sum, if_neg hday, habs, pure]

/-- The date of a day is read back. -/
lemma parseDate_dateText {n : ℕ} (h : n < 3652059) : parseDate (dateText n) = some n := by
  have hyear := takeDigits_padDigits (n := 4) (yearOf_lt h)
  have hmonth := takeDigits_padDigits (n := 2) (v := monthOf n)
    (lt_of_le_of_lt (monthOf_le n) (by decide))
  have hday := takeDigits_padDigits (n := 2) (v := dayOfMonth n)
    (lt_of_le_of_lt (dayOfMonth_le n) (by decide)) []
  rw [List.append_nil] at hday
  have hnotWeek : ∀ c ∈ padDigits 2 (monthOf n), c ≠ 'W' := by
    rintro c hc rfl
    exact absurd (isDigit_of_mem_padDigits (lt_of_le_of_lt (monthOf_le n) (by decide)) hc) (by decide)
  unfold parseDate dateText
  simp only [hyear, bind, Option.bind]
  split
  · rename_i heq
    exact absurd rfl (hnotWeek 'W' (by
      have hhead := (List.cons.inj heq).2
      exact (List.cons.inj hhead).1 ▸ List.mem_cons_self))
  · rename_i heq
    cases (List.cons.inj heq).1
  · rename_i heq
    obtain ⟨-, rfl⟩ := List.cons.inj heq
    simp only [hmonth, hday, ofCalendar?_yearOf]
  · rename_i hother
    exact absurd rfl (hother _)

lemma length_dateText (n : ℕ) : (dateText n).length = 10 := by
  simp [dateText]

/-- The date ends at the `T`. -/
lemma separator?_dateText (n : ℕ) (rest : List Char) :
    separator? (dateText n ++ rest) = some 10 := by
  have hlength : ¬ (dateText n ++ rest).length = 7 := by
    rw [List.length_append, length_dateText]
    omega
  have hdash : (dateText n ++ rest)[4]? = some '-' := rfl
  have hmonth : ¬ (dateText n ++ rest)[5]? = some 'W' := by
    intro hweek
    have hdigit := digit?_digitChar (d := monthOf n / 10) (by have := monthOf_le n; omega)
    change some (Nat.digitChar (monthOf n / 10)) = some 'W' at hweek
    rw [Option.some.inj hweek] at hdigit
    exact absurd hdigit (by simp [digit?])
  unfold separator?
  simp only [if_neg hlength, hdash, if_pos trivial, if_neg hmonth]

/-- No character of an ISO string is a `Z`. -/
lemma isoformat_chars {d : DateTime} (h : d.Valid) {c : Char} (hc : c ∈ d.isoformat.toList) :
    c ≠ 'Z' := by
  have hlt : (d.wall % day).toNat < 86400000000 := by
    have := Int.emod_lt_of_pos d.wall (show 0 < day by decide)
    have := Int.emod_nonneg d.wall (show day ≠ 0 by decide)
    unfold day hour minute second at *
    omega
  have hdays : (d.wall / day).toNat < 3652059 := by
    have hend := h.lt
    unfold wallEnd at hend
    have := Int.ediv_lt_of_lt_mul (show 0 < day by decide) hend
    omega
  have hdate : ∀ c ∈ dateText (d.wall / day).toNat, c ≠ 'Z' := by
    intro c hc
    unfold dateText at hc
    simp only [List.mem_append, List.mem_cons] at hc
    rcases hc with hc | rfl | hc | rfl | hc
    · exact (isDigit_ne (isDigit_of_mem_padDigits (yearOf_lt hdays) hc)).2.2
    · decide
    · exact (isDigit_ne (isDigit_of_mem_padDigits
        (lt_of_le_of_lt (monthOf_le _) (by decide)) hc)).2.2
    · decide
    · exact (isDigit_ne (isDigit_of_mem_padDigits
        (lt_of_le_of_lt (dayOfMonth_le _) (by decide)) hc)).2.2
  have hzone : ∀ c ∈ zoneText d.offset, c ≠ 'Z' := by
    intro c hc
    cases hoffset : d.offset with
    | none =>
      rw [hoffset] at hc
      cases hc
    | some o =>
      rw [hoffset] at hc
      rcases List.mem_cons.mp hc with rfl | hc
      · split <;> decide
      · obtain ⟨hh, hm, hsec, hfrac⟩ := splitClock_parts (h.offset o hoffset)
        change c ∈ offsetText _ _ _ _ at hc
        unfold offsetText at hc
        split at hc
        · simp only [List.mem_append, List.mem_cons] at hc
          rcases hc with hc | rfl | hc
          · exact (isDigit_ne (isDigit_of_mem_padDigits (by omega) hc)).2.2
          · decide
          · exact (isDigit_ne (isDigit_of_mem_padDigits (by omega) hc)).2.2
        · exact (clockText_chars (by omega) (by omega) (by omega) hfrac hc).2.2
  unfold isoformat at hc
  rw [String.toList_ofList, List.mem_append, List.mem_cons, List.mem_append] at hc
  rcases hc with hc | rfl | hc | hc
  · exact hdate c hc
  · decide
  · exact (splitClock_chars hlt hc).2.2
  · exact hzone c hc

/-- `fromisoformat` reads what `isoformat` writes. -/
theorem parse_isoformat {d : DateTime} (h : d.Valid) : parse d.isoformat = some d := by
  obtain ⟨n, hn⟩ : ∃ n : ℕ, (n : ℤ) = d.wall / day :=
    ⟨_, Int.toNat_of_nonneg (Int.ediv_nonneg h.nonneg (by decide))⟩
  obtain ⟨us, hus⟩ : ∃ us : ℕ, (us : ℤ) = d.wall % day :=
    ⟨_, Int.toNat_of_nonneg (Int.emod_nonneg _ (by decide))⟩
  have hdays : n < 3652059 := by
    have := h.lt
    unfold wallEnd at this
    have hday : (0 : ℤ) < day := by decide
    have := Int.ediv_lt_of_lt_mul hday this
    omega
  have hlt : us < 86400000000 := by
    have := Int.emod_lt_of_pos d.wall (show 0 < day by decide)
    unfold day hour minute second at *
    omega
  have htext : d.isoformat.toList =
      dateText n ++ 'T' :: (splitClock clockText us ++ zoneText d.offset) := by
    unfold isoformat
    rw [String.toList_ofList, ← hn, ← hus, Int.toNat_natCast, Int.toNat_natCast]
  have hplain : (d.isoformat.toList.flatMap fun c => if c = 'Z' then "+00:00".toList else [c]) =
      d.isoformat.toList := by
    rw [List.flatMap_congr fun c hc => if_neg (isoformat_chars h hc), List.flatMap_singleton']
  have hlong : ¬ (dateText n ++ 'T' :: (splitClock clockText us ++ zoneText d.offset)).length < 7 := by
    rw [List.length_append, length_dateText]
    omega
  have hdrop : (dateText n ++ 'T' :: (splitClock clockText us ++ zoneText d.offset)).drop 11 =
      splitClock clockText us ++ zoneText d.offset := rfl
  have htake : (dateText n ++ 'T' :: (splitClock clockText us ++ zoneText d.offset)).take 10 =
      dateText n := rfl
  have hwall : (n : ℤ) * day + us = d.wall := by
    rw [hn, hus]
    exact Int.ediv_mul_add_emod d.wall day
  unfold parse fromisoformat
  rw [hplain, htext]
  simp only [if_neg hlong, separator?_dateText, htake, parseDate_dateText hdays, hdrop, bind, Option.bind]
  split
  · rename_i hnil
    cases hnil
  · rw [parseTime_text hlt h.offset]
    simp only [pure, hwall]

end PaperTrade.Runtime.DateTime
