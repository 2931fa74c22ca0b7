import PaperTrade.Runtime.Literal

/-!
# Dates and times

A `DateTime` is a Python `datetime`: microseconds of wall clock since 0001-01-01 and, for an
aware one, the offset of its zone. Two aware values compare and subtract by their UTC instants,
two naive ones by their wall clocks, and a naive one against an aware one raises.

`fromisoformat` reads what `datetime.fromisoformat` documents: a calendar date with or without
dashes, an ISO week date, any one separator character, a time down to a fraction, and an offset.
-/

namespace PaperTrade.Runtime

/-- A Python `datetime`. -/
structure DateTime where
  /-- microseconds of wall clock since 0001-01-01T00:00 -/
  wall : ℤ
  /-- offset of the zone in microseconds; `none` for a naive value -/
  offset : Option ℤ
deriving DecidableEq, Repr

namespace DateTime

def second : ℤ := 1000000
def minute : ℤ := 60 * second
def hour : ℤ := 60 * minute
def day : ℤ := 24 * hour

/-- The first instant after the last one a `datetime` can hold, 9999-12-31T23:59:59.999999. -/
def wallEnd : ℤ := 3652059 * day

/-- `d.tzinfo is not None`. -/
def isAware (d : DateTime) : Bool := d.offset.isSome

/-- The scale on which values of one kind compare: UTC when aware, wall clock when naive. -/
def instant (d : DateTime) : ℤ := d.wall - d.offset.getD 0

/-- `(a - b)` in microseconds; `none` is the `TypeError` of a naive value against an aware one,
which `a <= b` raises as well. -/
def sub? (a b : DateTime) : Option ℤ :=
  if a.isAware = b.isAware then some (a.instant - b.instant) else none

/-- `d.hour * 60 + d.minute`. -/
def minuteOfDay (d : DateTime) : ℤ := d.wall % day / minute

/-- `d.weekday()`: Monday is 0, as 0001-01-01 was. -/
def weekday (d : DateTime) : ℤ := d.wall / day % 7

/-- `d.replace(second=0, microsecond=0)`. -/
def floorMinute (d : DateTime) : DateTime := { d with wall := d.wall - d.wall % minute }

/-- `d.replace(hour=0, minute=0, second=0, microsecond=0)`. -/
def floorDay (d : DateTime) : DateTime := { d with wall := d.wall - d.wall % day }

/-- `d.replace(hour=m // 60, minute=m % 60, second=0, microsecond=0)`. -/
def atMinute (d : DateTime) (m : ℤ) : DateTime :=
  { d with wall := d.wall - d.wall % day + m * minute }

/-- `d + timedelta`; `none` is the `OverflowError` past the year 9999. -/
def add? (d : DateTime) (delta : ℤ) : Option DateTime :=
  if d.wall + delta < wallEnd then some { d with wall := d.wall + delta } else none

theorem sub?_eq_some {a b : DateTime} (h : a.isAware = b.isAware) :
    a.sub? b = some (a.instant - b.instant) := if_pos h

/-! ## The calendar -/

def isLeap (year : ℕ) : Bool := year % 4 = 0 ∧ (year % 100 ≠ 0 ∨ year % 400 = 0)

def daysInMonth (year month : ℕ) : ℕ :=
  if month = 2 then (if isLeap year then 29 else 28)
  else if month = 4 ∨ month = 6 ∨ month = 9 ∨ month = 11 then 30
  else 31

/-- Days from 0001-01-01 to the first of January of `year`. -/
def daysBeforeYear (year : ℕ) : ℕ :=
  let y := year - 1
  y * 365 + y / 4 - y / 100 + y / 400

def daysBeforeMonth (year month : ℕ) : ℕ :=
  ((List.range (month - 1)).map fun m => daysInMonth year (m + 1)).sum

/-- Days since 0001-01-01 of a calendar date; `none` when a field is out of range. -/
def ofCalendar? (year month dayOfMonth : ℕ) : Option ℕ :=
  if 1 ≤ year ∧ 1 ≤ month ∧ month ≤ 12 ∧ 1 ≤ dayOfMonth ∧ dayOfMonth ≤ daysInMonth year month then
    some (daysBeforeYear year + daysBeforeMonth year month + (dayOfMonth - 1))
  else none

/-- Days since 0001-01-01 of an ISO week date; week 53 exists in the years whose first of January
is a Thursday, and in leap years whose first of January is a Wednesday. -/
def ofWeek? (year week dayOfWeek : ℕ) : Option ℕ :=
  let first := daysBeforeYear year
  let long := first % 7 = 3 ∨ (first % 7 = 2 ∧ isLeap year)
  let monday : ℤ := if first % 7 ≤ 3 then first - first % 7 else first - first % 7 + 7
  let ordinal := monday + ((week : ℤ) - 1) * 7 + ((dayOfWeek : ℤ) - 1)
  if 1 ≤ year ∧ 1 ≤ week ∧ (week ≤ 52 ∨ (week = 53 ∧ long)) ∧ 1 ≤ dayOfWeek ∧ dayOfWeek ≤ 7 ∧
      0 ≤ ordinal ∧ ordinal < 3652059 then
    some ordinal.toNat
  else none

/-! ## `datetime.fromisoformat` -/

/-- Exactly `n` digits. -/
def takeDigits : ℕ → List Char → Option (ℕ × List Char)
  | 0, s => some (0, s)
  | _ + 1, [] => none
  | n + 1, c :: s => do
    let d ← digit? c
    let (v, rest) ← takeDigits n s
    pure (d * 10 ^ n + v, rest)

/-- The date part alone: `YYYY-MM-DD`, `YYYYMMDD`, `YYYY-Www`, `YYYYWww`, `YYYY-Www-D`, `YYYYWwwD`. -/
def parseDate (s : List Char) : Option ℕ := do
  let (year, rest) ← takeDigits 4 s
  match rest with
  | '-' :: 'W' :: rest =>
    match ← takeDigits 2 rest with
    | (week, []) => ofWeek? year week 1
    | (week, '-' :: rest) => match ← takeDigits 1 rest with
      | (d, []) => ofWeek? year week d
      | _ => none
    | _ => none
  | 'W' :: rest =>
    match ← takeDigits 2 rest with
    | (week, []) => ofWeek? year week 1
    | (week, rest) => match ← takeDigits 1 rest with
      | (d, []) => ofWeek? year week d
      | _ => none
  | '-' :: rest =>
    match ← takeDigits 2 rest with
    | (month, '-' :: rest) => match ← takeDigits 2 rest with
      | (d, []) => ofCalendar? year month d
      | _ => none
    | _ => none
  | rest =>
    let (month, rest) ← takeDigits 2 rest
    match ← takeDigits 2 rest with
    | (d, []) => ofCalendar? year month d
    | _ => none

/-- Where the date part ends (`_find_isoformat_datetime_separator`); `none` when the string is
malformed there. -/
def separator? (s : List Char) : Option ℕ :=
  let at' := fun i => s[i]?
  let isDigitAt := fun i => ((at' i).map isDigit).getD false
  if s.length = 7 then some 7
  else if at' 4 = some '-' then
    if at' 5 = some 'W' then
      if at' 8 = some '-' then
        if s.length = 9 then none
        else if isDigitAt 10 then some 8
        else some 10
      else some 8
    else some 10
  else if at' 4 = some 'W' then
    let run := ((s.drop 7).takeWhile isDigit).length + 7
    if run < 9 then some run else if run % 2 = 0 then some 7 else some 8
  else some 8

/-- A fraction of a second: six digits count, further digits are dropped. -/
def parseFraction (s : List Char) : Option ℤ :=
  if s = [] ∨ ¬ s.all isDigit then none
  else
    let kept := s.take 6
    (takeDigits kept.length kept).map fun (v, _) => (v * 10 ^ (6 - kept.length) : ℕ)

/-- `HH[:?MM[:?SS[{.,}f…]]]`: hour, minute, second and microsecond. -/
def parseClock (s : List Char) : Option (ℕ × ℕ × ℕ × ℤ) := do
  let (h, rest) ← takeDigits 2 s
  let tail := fun (m sec : ℕ) (rest : List Char) => match rest with
    | [] => some (h, m, sec, 0)
    | '.' :: frac | ',' :: frac => (parseFraction frac).map fun us => (h, m, sec, us)
    | _ => none
  match rest with
  | ':' :: rest =>
    let (m, rest) ← takeDigits 2 rest
    match rest with
    | ':' :: rest =>
      let (sec, rest) ← takeDigits 2 rest
      tail m sec rest
    | rest => tail m 0 rest
  | rest =>
    match takeDigits 2 rest with
    | none => tail 0 0 rest
    | some (m, rest) =>
      match takeDigits 2 rest with
      | none => tail m 0 rest
      | some (sec, rest) => tail m sec rest

/-- Time of day and offset. -/
def parseTime (s : List Char) : Option (ℤ × Option ℤ) := do
  let clock := s.takeWhile fun c => c ≠ '-' ∧ c ≠ '+' ∧ c ≠ 'Z'
  let zone := s.drop clock.length
  let (h, m, sec, us) ← parseClock clock
  if 24 ≤ h ∨ 60 ≤ m ∨ 60 ≤ sec then none
  let time := h * hour + m * minute + sec * second + us
  match zone with
  | [] => pure (time, none)
  | ['Z'] => pure (time, some 0)
  | sign :: zone =>
    let (h, m, sec, us) ← parseClock zone
    let delta := h * hour + m * minute + sec * second + us
    if day ≤ delta then none
    pure (time, some (if sign = '-' then -delta else delta))

/-- `datetime.fromisoformat(s)`; `none` is a `ValueError`. -/
def fromisoformat (s : List Char) : Option DateTime := do
  if s.length < 7 then none
  let split ← separator? s
  let days ← parseDate (s.take split)
  match s.drop (split + 1) with
  | [] => pure ⟨days * day, none⟩
  | t =>
    let (time, offset) ← parseTime t
    pure ⟨days * day + time, offset⟩

/-- `datetime.fromisoformat(s.replace("Z", "+00:00"))`. -/
def parse (s : String) : Option DateTime :=
  fromisoformat (s.toList.flatMap fun c => if c = 'Z' then "+00:00".toList else [c])

example : (parse "2024-01-01T00:00:00Z").map instant = some (738885 * day) := by decide +kernel
example : (parse "2024-W01-1 07:00+07:00").map instant = some (738885 * day) := by decide +kernel
example : parse "2024-02-30" = none := by decide +kernel
example : parse "" = none := by decide +kernel

end DateTime

end PaperTrade.Runtime
