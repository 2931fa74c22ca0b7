import PaperTrade.Runtime.Float

/-!
# Number literals

`float(s)` and `int(s)` on a string, as the Python reference describes them: surrounding
whitespace is dropped, a sign is optional, an underscore may stand between two digits, and
`float` also reads `inf`, `infinity` and `nan` in any letter case. A literal denotes its exact
value. Everything works on the characters of the string, so it runs under `decide`.
-/

namespace PaperTrade.Runtime

/-- The value of an ASCII digit. -/
def digit? (c : Char) : Option ℕ :=
  if '0' ≤ c ∧ c ≤ '9' then some (c.toNat - '0'.toNat) else none

def isDigit (c : Char) : Bool := (digit? c).isSome

/-- ASCII lower case. -/
def lowerChar (c : Char) : Char :=
  if 'A' ≤ c ∧ c ≤ 'Z' then Char.ofNat (c.toNat + 32) else c

/-- ASCII upper case. -/
def upperChar (c : Char) : Char :=
  if 'a' ≤ c ∧ c ≤ 'z' then Char.ofNat (c.toNat - 32) else c

/-- `s.lower()` on the ASCII letters. -/
def lower (s : String) : List Char := s.toList.map lowerChar

/-- `s.upper()` on the ASCII letters. -/
def upper (s : String) : List Char := s.toList.map upperChar

def isSpace (c : Char) : Bool :=
  c = ' ' || c = '\t' || c = '\n' || c = '\r' || c = '\x0b' || c = '\x0c'

/-- `s.strip()`. -/
def strip (s : List Char) : List Char :=
  ((s.dropWhile isSpace).reverse.dropWhile isSpace).reverse

/-- The digits `s` starts with, their number and value, and what follows. An underscore is
skipped only between two digits. -/
def digits : List Char → ℕ → ℕ → ℕ × ℕ × List Char
  | [], count, value => (count, value, [])
  | '_' :: c :: rest, count, value =>
    match digit? c with
    | some d => if count = 0 then (0, 0, '_' :: c :: rest) else digits rest (count + 1) (10 * value + d)
    | none => (count, value, '_' :: c :: rest)
  | c :: rest, count, value =>
    match digit? c with
    | some d => digits rest (count + 1) (10 * value + d)
    | none => (count, value, c :: rest)

/-- An optional sign: `true` for a minus. -/
def sign : List Char → Bool × List Char
  | '-' :: rest => (true, rest)
  | '+' :: rest => (false, rest)
  | s => (false, s)

/-- The exponent part of a decimal literal; no exponent counts as 0. -/
def exponent? : List Char → Option (ℤ × List Char)
  | 'e' :: s | 'E' :: s =>
    let (negative, s) := sign s
    match digits s 0 0 with
    | (0, _, _) => none
    | (_, e, rest) => some (if negative then -(e : ℤ) else e, rest)
  | s => some (0, s)

/-- `mantissa * 10 ^ e`. -/
def scale (mantissa : ℕ) (e : ℤ) : ℚ :=
  if 0 ≤ e then (mantissa : ℚ) * 10 ^ e.toNat else (mantissa : ℚ) / 10 ^ (-e).toNat

/-- An unsigned decimal literal. -/
def decimal? (s : List Char) : Option ℚ :=
  let (n, whole, rest) := digits s 0 0
  let (m, mantissa, rest) := match rest with
    | '.' :: rest =>
      match digits rest 0 0 with
      | (0, _, _) => (0, whole, rest)
      | (m, frac, rest) => (m, whole * 10 ^ m + frac, rest)
    | rest => (0, whole, rest)
  if n + m = 0 then none
  else match exponent? rest with
    | some (e, []) => some (scale mantissa (e - m))
    | _ => none

/-- `float(s)`; `none` is a `ValueError`. -/
def parseFloat (s : String) : Option PyFloat :=
  let (negative, body) := sign (strip s.toList)
  match body.map lowerChar with
  | ['n', 'a', 'n'] => some .nan
  | ['i', 'n', 'f'] | ['i', 'n', 'f', 'i', 'n', 'i', 't', 'y'] => some (.inf negative)
  | _ => (decimal? body).map fun q => .fin (if negative then -q else q)

/-- `int(s)`; `none` is a `ValueError`. -/
def parseInt (s : String) : Option ℤ :=
  let (negative, body) := sign (strip s.toList)
  match digits body 0 0 with
  | (0, _, _) => none
  | (_, n, []) => some (if negative then -(n : ℤ) else n)
  | _ => none

example : parseFloat " -12.50e1\n" = some (.fin (-125)) := by decide +kernel
example : parseFloat "+Infinity" = some (.inf false) := by decide +kernel
example : parseFloat "1__0" = none := by decide +kernel
example : parseInt "1_0" = some 10 := by decide +kernel

end PaperTrade.Runtime
