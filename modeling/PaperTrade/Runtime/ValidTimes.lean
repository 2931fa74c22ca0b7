import PaperTrade.Runtime.Isoformat

/-!
# What `fromisoformat` returns

Every value that `fromisoformat` reads is one that a `datetime` can hold (`parse_valid`): the date lies
in the years 1 to 9999, the time of day is below 24 hours, and so is the offset.
-/

namespace PaperTrade.Runtime.DateTime

lemma digit?_lt {c : Char} {d : ℕ} (h : digit? c = some d) : d < 10 := by
  unfold digit? at h
  split at h
  · rename_i hc
    cases h
    have hnine : c.toNat ≤ '9'.toNat := hc.2
    change c.toNat - 48 < 10
    change c.toNat ≤ 57 at hnine
    omega
  · cases h

lemma takeDigits_lt {n v : ℕ} {s rest : List Char} (h : takeDigits n s = some (v, rest)) :
    v < 10 ^ n := by
  induction n generalizing s v with
  | zero =>
    cases h
    norm_num
  | succ n ih =>
    cases s with
    | nil => cases h
    | cons c s =>
      simp only [takeDigits, bind, Option.bind_eq_some_iff, pure, Option.some.injEq, Prod.mk.injEq] at h
      obtain ⟨d, hd, ⟨w, rest'⟩, hw, rfl, rfl⟩ := h
      have hdigit := digit?_lt hd
      have htail : w < 10 ^ n := ih hw
      calc d * 10 ^ n + w < d * 10 ^ n + 10 ^ n := Nat.add_lt_add_left htail _
        _ = (d + 1) * 10 ^ n := (Nat.succ_mul _ _).symm
        _ ≤ 10 * 10 ^ n := Nat.mul_le_mul_right _ hdigit
        _ = 10 ^ (n + 1) := (Nat.pow_succ').symm

/-! ## The date -/

lemma daysBeforeMonth_le {year month day : ℕ} (hone : 1 ≤ month) (htwelve : month ≤ 12)
    (hday : day ≤ daysInMonth year month) : daysBeforeMonth year month + day ≤ yearLength year := by
  revert hday
  unfold yearLength daysBeforeMonth daysInMonth
  generalize isLeap year = leap
  intro hday
  refine Nat.le_trans (Nat.add_le_add_left hday _) ?_
  clear hday
  interval_cases month <;> cases leap <;> decide

lemma ofCalendar?_lt {year month dayOfMonth n : ℕ} (hyear : year < 10000)
    (h : ofCalendar? year month dayOfMonth = some n) : n < 3652059 := by
  unfold ofCalendar? at h
  split at h
  · rename_i hfields
    obtain ⟨hfirst, hone, htwelve, hday, hdays⟩ := hfields
    cases h
    have hlength := daysBeforeMonth_le hone htwelve hdays
    have hleap : yearLength year ≤ 366 := by
      unfold yearLength
      split <;> omega
    by_cases hlast : year = 9999
    · subst hlast
      have hyears : daysBeforeYear 9999 = 3651694 := by decide +kernel
      have hcommon : yearLength 9999 = 365 := by decide +kernel
      omega
    · unfold daysBeforeYear
      dsimp only
      omega
  · cases h

lemma ofWeek?_lt {year week dayOfWeek n : ℕ} (h : ofWeek? year week dayOfWeek = some n) : n < 3652059 := by
  simp only [ofWeek?, Option.ite_none_right_eq_some] at h
  obtain ⟨⟨-, -, -, -, -, hlow, hhigh⟩, hn⟩ := h
  cases hn
  omega

lemma parseDate_lt {s : List Char} {n : ℕ} (h : parseDate s = some n) : n < 3652059 := by
  unfold parseDate at h
  simp only [bind, Option.bind_eq_some_iff] at h
  obtain ⟨⟨year, rest⟩, hyear, h⟩ := h
  have hfour : year < 10000 := takeDigits_lt hyear
  dsimp only at h
  split at h
  · simp only [Option.bind_eq_some_iff] at h
    obtain ⟨⟨week, rest⟩, -, h⟩ := h
    split at h
    · exact ofWeek?_lt h
    · simp only [Option.bind_eq_some_iff] at h
      obtain ⟨⟨d, rest⟩, -, h⟩ := h
      split at h
      · exact ofWeek?_lt h
      · cases h
    · cases h
  · simp only [Option.bind_eq_some_iff] at h
    obtain ⟨⟨week, rest⟩, -, h⟩ := h
    split at h
    · exact ofWeek?_lt h
    · simp only [Option.bind_eq_some_iff] at h
      obtain ⟨⟨d, rest⟩, -, h⟩ := h
      split at h
      · exact ofWeek?_lt h
      · cases h
  · simp only [Option.bind_eq_some_iff] at h
    obtain ⟨⟨month, rest⟩, -, h⟩ := h
    split at h
    · simp only [Option.bind_eq_some_iff] at h
      obtain ⟨⟨d, rest⟩, -, h⟩ := h
      split at h
      · exact ofCalendar?_lt hfour h
      · cases h
    · cases h
  · simp only [Option.bind_eq_some_iff] at h
    obtain ⟨⟨month, rest⟩, -, ⟨d, rest'⟩, -, h⟩ := h
    dsimp only at h
    split at h
    · exact ofCalendar?_lt hfour h
    · cases h

/-! ## The time of day and the offset -/

lemma parseFraction_lt {s : List Char} {us : ℤ} (h : parseFraction s = some us) :
    0 ≤ us ∧ us < 1000000 := by
  unfold parseFraction at h
  split at h
  · cases h
  · simp only [Option.map_eq_some_iff] at h
    obtain ⟨⟨v, rest⟩, hv, rfl⟩ := h
    have hsix : (s.take 6).length ≤ 6 := List.length_take_le _ _
    have hlt := takeDigits_lt hv
    have hscaled : v * 10 ^ (6 - (s.take 6).length) < 1000000 := by
      calc v * 10 ^ (6 - (s.take 6).length)
          < 10 ^ (s.take 6).length * 10 ^ (6 - (s.take 6).length) :=
            Nat.mul_lt_mul_of_pos_right hlt (by positivity)
        _ = 10 ^ 6 := by rw [← Nat.pow_add, Nat.add_sub_cancel' hsix]
        _ = 1000000 := by norm_num
    exact ⟨by positivity, by exact_mod_cast hscaled⟩

/-- The end of a clock time, from the seconds on. -/
def clockTail (h m sec : ℕ) : List Char → Option (ℕ × ℕ × ℕ × ℤ)
  | [] => some (h, m, sec, 0)
  | '.' :: frac | ',' :: frac => (parseFraction frac).map fun us => (h, m, sec, us)
  | _ => none

lemma clockTail_us {h' m' sec' h m sec : ℕ} {us : ℤ} {rest : List Char}
    (hrest : clockTail h' m' sec' rest = some (h, m, sec, us)) : 0 ≤ us ∧ us < 1000000 := by
  unfold clockTail at hrest
  split at hrest
  · cases hrest
    norm_num
  · simp only [Option.map_eq_some_iff] at hrest
    obtain ⟨us', hus, heq⟩ := hrest
    cases heq
    exact parseFraction_lt hus
  · simp only [Option.map_eq_some_iff] at hrest
    obtain ⟨us', hus, heq⟩ := hrest
    cases heq
    exact parseFraction_lt hus
  · cases hrest

lemma parseClock_us {s : List Char} {h m sec : ℕ} {us : ℤ} (hs : parseClock s = some (h, m, sec, us)) :
    0 ≤ us ∧ us < 1000000 := by
  unfold parseClock at hs
  simp only [bind, Option.bind_eq_some_iff] at hs
  obtain ⟨⟨hour, rest⟩, -, hs⟩ := hs
  dsimp only at hs
  split at hs
  · simp only [Option.bind_eq_some_iff] at hs
    obtain ⟨⟨minutes, rest⟩, -, hs⟩ := hs
    dsimp only at hs
    split at hs
    · simp only [Option.bind_eq_some_iff] at hs
      obtain ⟨⟨seconds, rest⟩, -, hs⟩ := hs
      exact clockTail_us hs
    · exact clockTail_us hs
  · split at hs
    · exact clockTail_us hs
    · split at hs
      · exact clockTail_us hs
      · exact clockTail_us hs

lemma parseTime_lt {s : List Char} {time : ℤ} {offset : Option ℤ} (hs : parseTime s = some (time, offset)) :
    (0 ≤ time ∧ time < 86400000000) ∧
      ∀ o, offset = some o → o.natAbs < 86400000000 := by
  unfold parseTime at hs
  simp only [bind, Option.bind_eq_some_iff] at hs
  obtain ⟨⟨h, m, sec, us⟩, hclock, hs⟩ := hs
  obtain ⟨hlow, hhigh⟩ := parseClock_us hclock
  dsimp only at hs
  split at hs
  · cases hs
  · rename_i hrange
    have htime : 0 ≤ h * hour + m * minute + sec * second + us ∧
        h * hour + m * minute + sec * second + us < 86400000000 := by
      simp only [hour, minute, second]
      omega
    split at hs
    · cases hs
      exact ⟨htime, fun o ho => by cases ho⟩
    · cases hs
      exact ⟨htime, fun o ho => by cases ho; norm_num⟩
    · rename_i sign zone hzone
      simp only [Option.bind_eq_some_iff] at hs
      obtain ⟨⟨h', m', sec', us'⟩, hclock', hs⟩ := hs
      obtain ⟨hlow', hhigh'⟩ := parseClock_us hclock'
      dsimp only at hs
      split at hs
      · cases hs
      · rename_i hday
        cases hs
        refine ⟨htime, fun o ho => ?_⟩
        cases ho
        simp only [day, hour, minute, second] at hday ⊢
        split <;> omega

/-! ## The value -/

theorem fromisoformat_valid {s : List Char} {d : DateTime} (h : fromisoformat s = some d) : d.Valid := by
  unfold fromisoformat at h
  simp only [bind] at h
  split at h
  · cases h
  · simp only [Option.bind_eq_some_iff] at h
    obtain ⟨split, -, days, hdays, h⟩ := h
    have hlt := parseDate_lt hdays
    split at h
    · cases h
      exact ⟨by simp only [day, hour, minute, second]; omega,
        by simp only [wallEnd, day, hour, minute, second]; omega, fun o ho => by cases ho⟩
    · simp only [Option.bind_eq_some_iff] at h
      obtain ⟨⟨time, offset⟩, htime, h⟩ := h
      obtain ⟨⟨hlow, hhigh⟩, hoffset⟩ := parseTime_lt htime
      cases h
      exact ⟨by simp only [day, hour, minute, second]; omega,
        by simp only [wallEnd, day, hour, minute, second]; omega, hoffset⟩

theorem parse_valid {s : String} {d : DateTime} (h : parse s = some d) : d.Valid :=
  fromisoformat_valid h

end PaperTrade.Runtime.DateTime
