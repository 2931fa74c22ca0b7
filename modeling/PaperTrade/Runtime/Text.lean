import PaperTrade.Runtime.Json

/-!
# Python strings

`Text` is a Python `str`. Some strings reach a program from outside, character by character;
others are written by a formatter of the program itself, as `str(x)` of a float or
`json.dumps(v)`. The second kind stays symbolic: an exact rational has no decimal spelling in
general, and all that is done with such a string is to read it back, where
`float(str(x)) == x` and `json.loads(json.dumps(v)) == v`.

`str(v)` of a decoded value is the Python literal of the value and not its JSON, so it is
spelled out in characters (`reprChars`): what `json.loads` makes of it depends on them.
-/

namespace PaperTrade.Runtime

/-- A Python `str`. -/
inductive Text
  | chars (s : String)
  /-- `str(x)` of a float. -/
  | num (x : PyFloat)
  /-- `json.dumps(v)`. -/
  | json (v : Json)
deriving DecidableEq

namespace Text

instance : Coe String Text := ⟨chars⟩

/-- `s == ""`. -/
def isEmpty : Text → Bool
  | chars s => s = ""
  | _ => false

/-- `s in ("{}", "")`. -/
def isBlankObject : Text → Bool
  | chars s => s = "{}" || s = ""
  | json (.obj []) => true
  | _ => false

/-- `float(s)`; `none` is a `ValueError`. -/
def float? : Text → Option PyFloat
  | chars s => parseFloat s
  | num x => some x
  | json (.int i) => some (.fin i)
  | json (.float x) => some x
  | json _ => none

/-- `json.loads(s)`; `none` is a `JSONDecodeError`. `str` spells NaN and the infinities in lower
case, which JSON does not read. -/
def loads : Text → Option Json
  | chars s => Json.parse s.toList
  | num (.fin q) => some (.float (.fin q))
  | num _ => none
  | json v => some v

/-- `json.loads(s or "{}")`. -/
def loadsOrEmpty (s : Text) : Option Json := if s.isEmpty then some (.obj []) else s.loads

@[simp] theorem loads_json (v : Json) : (json v).loads = some v := rfl
@[simp] theorem loadsOrEmpty_json (v : Json) : (json v).loadsOrEmpty = some v := rfl
@[simp] theorem float?_num (x : PyFloat) : (num x).float? = some x := rfl

end Text

/-! ## `str` of a decoded value -/

/-- `repr(s)`: single quotes unless the string holds one and no double quote. -/
def reprString (s : List Char) : List Char :=
  let quote := if '\'' ∈ s ∧ '"' ∉ s then '"' else '\''
  let escape := fun (c : Char) =>
    if c = '\\' ∨ c = quote then ['\\', c]
    else if c = '\n' then ['\\', 'n']
    else if c = '\r' then ['\\', 'r']
    else if c = '\t' then ['\\', 't']
    else [c]
  quote :: s.flatMap escape ++ [quote]

/-- `repr(x)` of a float; the decimal digits of a finite value are cut after the seventeenth. -/
def reprFloat : PyFloat → List Char
  | .nan => "nan".toList
  | .inf true => "-inf".toList
  | .inf false => "inf".toList
  | .fin q =>
    let n := q.num.natAbs
    let whole := (Nat.repr (n / q.den)).toList
    let frac := (Nat.repr (n % q.den * 10 ^ 17 / q.den)).toList
    let padded := List.replicate (17 - frac.length) '0' ++ frac
    let frac := (padded.reverse.dropWhile (· = '0')).reverse
    (if q < 0 then ['-'] else []) ++ whole ++ ['.'] ++ (if frac = [] then ['0'] else frac)

def joinComma : List (List Char) → List Char
  | [] => []
  | [s] => s
  | s :: t :: rest => s ++ [',', ' '] ++ joinComma (t :: rest)

mutual

/-- `repr(v)`. -/
def reprChars : Json → List Char
  | .null => "None".toList
  | .bool true => "True".toList
  | .bool false => "False".toList
  | .int i => (toString i).toList
  | .float x => reprFloat x
  | .str s => reprString s.toList
  | .arr items => '[' :: joinComma (reprItems items) ++ [']']
  | .obj entries => '{' :: joinComma (reprEntries entries) ++ ['}']

def reprItems : List Json → List (List Char)
  | [] => []
  | v :: rest => reprChars v :: reprItems rest

def reprEntries : List (String × Json) → List (List Char)
  | [] => []
  | (k, v) :: rest => (reprString k.toList ++ [':', ' '] ++ reprChars v) :: reprEntries rest

end

/-- A `\u` escape. -/
def hexEscape (n : ℕ) : List Char :=
  let hex := fun d => if d < 10 then Char.ofNat (48 + d) else Char.ofNat (87 + d)
  ['\\', 'u', hex (n / 4096 % 16), hex (n / 256 % 16), hex (n / 16 % 16), hex (n % 16)]

/-- `json.dumps(s)`; a character outside ASCII is escaped, beyond the basic plane as two. -/
def dumpsString (s : List Char) : List Char :=
  let escape := fun (c : Char) =>
    if c = '"' ∨ c = '\\' then ['\\', c]
    else if c = '\n' then ['\\', 'n']
    else if c = '\r' then ['\\', 'r']
    else if c = '\t' then ['\\', 't']
    else if c = '\x08' then ['\\', 'b']
    else if c = '\x0c' then ['\\', 'f']
    else if c.toNat < 0x20 ∨ (0x7e < c.toNat ∧ c.toNat < 0x10000) then hexEscape c.toNat
    else if 0x10000 ≤ c.toNat then
      hexEscape (0xd800 + (c.toNat - 0x10000) / 0x400) ++
        hexEscape (0xdc00 + (c.toNat - 0x10000) % 0x400)
    else [c]
  '"' :: s.flatMap escape ++ ['"']

def dumpsFloat : PyFloat → List Char
  | .nan => "NaN".toList
  | .inf true => "-Infinity".toList
  | .inf false => "Infinity".toList
  | x => reprFloat x

mutual

/-- `json.dumps(v)` in characters. -/
def dumpsChars : Json → List Char
  | .null => "null".toList
  | .bool true => "true".toList
  | .bool false => "false".toList
  | .int i => (toString i).toList
  | .float x => dumpsFloat x
  | .str s => dumpsString s.toList
  | .arr items => '[' :: joinComma (dumpsItems items) ++ [']']
  | .obj entries => '{' :: joinComma (dumpsEntries entries) ++ ['}']

def dumpsItems : List Json → List (List Char)
  | [] => []
  | v :: rest => dumpsChars v :: dumpsItems rest

def dumpsEntries : List (String × Json) → List (List Char)
  | [] => []
  | (k, v) :: rest => (dumpsString k.toList ++ [':', ' '] ++ dumpsChars v) :: dumpsEntries rest

end

/-- The characters of a string, where a value is built around the string itself. -/
def Text.spell : Text → String
  | .chars s => s
  | .num x => String.ofList (reprFloat x)
  | .json v => String.ofList (dumpsChars v)

/-- `str(v)`: a string is itself, every other value its `repr`. -/
def pyStr : Json → Text
  | .str s => .chars s
  | .float x => .num x
  | v => .chars (String.ofList (reprChars v))

/-- `float(str(v))`; `none` is a `ValueError`. The spelling of a number reads back as the number,
and that of any other value but a string is no number. -/
def Json.floatOfStr : Json → Option PyFloat
  | .int i => some (.fin i)
  | .float x => some x
  | .str s => parseFloat s
  | _ => none

/-- `str` of a `dict` whose first key holds no single quote is not JSON: the key comes out in
single quotes. -/
theorem loads_pyStr_obj (k : String) (v : Json) (rest : List (String × Json))
    (hk : '\'' ∉ k.toList) : (pyStr (.obj ((k, v) :: rest))).loads = none := by
  have hquote : ∃ tail, reprChars (.obj ((k, v) :: rest)) = '{' :: '\'' :: tail := by
    have hkey : reprString k.toList = '\'' :: (reprString k.toList).tail := by
      simp [reprString, hk]
    cases rest with
    | nil => exact ⟨_, by rw [reprChars, reprEntries, hkey]; rfl⟩
    | cons p rest =>
      obtain ⟨k', v'⟩ := p
      exact ⟨_, by rw [reprChars, reprEntries, hkey, reprEntries]; rfl⟩
  obtain ⟨tail, htail⟩ := hquote
  have hentries : ∀ fuel, Json.parseEntries fuel ('\'' :: tail) [] = none := by
    intro fuel
    cases fuel <;> simp [Json.parseEntries]
  simp only [pyStr, Text.loads, String.toList_ofList, htail, Json.parse]
  simp [Json.skip, Json.isJsonSpace, Json.parseValue, hentries]

end PaperTrade.Runtime
