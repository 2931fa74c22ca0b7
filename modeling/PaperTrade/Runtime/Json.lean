import PaperTrade.Runtime.Literal

/-!
# JSON values

`Json` is what `json.loads` returns: a `dict` is the list of its entries in insertion order,
with the operations of Python dictionaries on it. `Json.parse` is `json.loads` on the characters
of a string: it reads `NaN` and the infinities, rejects control characters inside strings and
keeps the last value of a repeated key.
-/

namespace PaperTrade.Runtime

/-- A value decoded from JSON. -/
inductive Json
  | null
  | bool (b : Bool)
  | int (i : ℤ)
  | float (x : PyFloat)
  | str (s : String)
  | arr (items : List Json)
  | obj (entries : List (String × Json))

/-- The entries of a `dict`. -/
abbrev Entries := List (String × Json)

namespace Entries

/-- `d.get(k)`. -/
def get? : Entries → String → Option Json
  | [], _ => none
  | (k', v) :: d, k => if k' = k then some v else get? d k

/-- `d[k] = v`. -/
def set : Entries → String → Json → Entries
  | [], k, v => [(k, v)]
  | (k', v') :: d, k, v => if k' = k then (k, v) :: d else (k', v') :: set d k v

/-- `d.update(e)`. -/
def update (d e : Entries) : Entries := e.foldl (fun d p => set d p.1 p.2) d

theorem get?_set (d : Entries) (k k' : String) (v : Json) :
    get? (set d k v) k' = if k' = k then some v else get? d k' := by
  induction d with
  | nil => simp [set, get?, eq_comm]
  | cons p d ih =>
    obtain ⟨k₀, v₀⟩ := p
    by_cases h₀ : k₀ = k
    · subst h₀
      by_cases h : k' = k₀
      · simp [set, get?, h]
      · simp [set, get?, h, Ne.symm h]
    · by_cases h : k₀ = k'
      · subst h
        simp [set, get?, h₀]
      · simp [set, get?, h₀, h, ih]

theorem get?_update_of_not_mem (d e : Entries) (k : String) (h : ∀ v, (k, v) ∉ e) :
    get? (update d e) k = get? d k := by
  induction e generalizing d with
  | nil => rfl
  | cons p e ih =>
    have hp : k ≠ p.1 := by
      rintro rfl
      exact h p.2 (List.mem_cons_self ..)
    rw [update, List.foldl_cons]
    have := ih (set d p.1 p.2) fun v hv => h v (List.mem_cons_of_mem _ hv)
    rw [update] at this
    rw [this, get?_set, if_neg hp]

/-- `d[k] = v` keeps the first entry's key in first place. -/
theorem set_cons_key (d : Entries) (k₀ : String) (v₀ : Json) (k : String) (v : Json) :
    ∃ v' d', set ((k₀, v₀) :: d) k v = (k₀, v') :: d' := by
  unfold set
  by_cases h : k₀ = k
  · exact ⟨v, d, by rw [if_pos h, h]⟩
  · exact ⟨v₀, set d k v, by rw [if_neg h]⟩

theorem update_cons_key (d e : Entries) (k₀ : String) (v₀ : Json) :
    ∃ v' d', update ((k₀, v₀) :: d) e = (k₀, v') :: d' := by
  induction e generalizing d v₀ with
  | nil => exact ⟨v₀, d, rfl⟩
  | cons p e ih =>
    obtain ⟨v₁, d₁, h₁⟩ := set_cons_key d k₀ v₀ p.1 p.2
    rw [update, List.foldl_cons, h₁]
    exact ih d₁ v₁

end Entries

namespace Json

/-! ## Equality -/

mutual

/-- Whether two values are the same one. -/
def beq : Json → Json → Bool
  | null, null => true
  | bool a, bool b => a == b
  | int a, int b => a == b
  | float a, float b => decide (a = b)
  | str a, str b => a == b
  | arr a, arr b => beqItems a b
  | obj a, obj b => beqEntries a b
  | _, _ => false

def beqItems : List Json → List Json → Bool
  | [], [] => true
  | a :: as, b :: bs => beq a b && beqItems as bs
  | _, _ => false

def beqEntries : List (String × Json) → List (String × Json) → Bool
  | [], [] => true
  | a :: as, b :: bs => beqEntry a b && beqEntries as bs
  | _, _ => false

def beqEntry : String × Json → String × Json → Bool
  | (k, a), (k', b) => k == k' && beq a b

end

mutual

theorem beq_iff : (a b : Json) → (beq a b = true ↔ a = b)
  | null, b => by cases b <;> simp [beq]
  | bool a, b => by cases b <;> simp [beq]
  | int a, b => by cases b <;> simp [beq]
  | float a, b => by cases b <;> simp [beq]
  | str a, b => by cases b <;> simp [beq]
  | arr a, b => by cases b <;> simp [beq, beqItems_iff a]
  | obj a, b => by cases b <;> simp [beq, beqEntries_iff a]

theorem beqItems_iff : (a b : List Json) → (beqItems a b = true ↔ a = b)
  | [], b => by cases b <;> simp [beqItems]
  | a :: as, b => by cases b <;> simp [beqItems, beq_iff a, beqItems_iff as]

theorem beqEntries_iff : (a b : List (String × Json)) → (beqEntries a b = true ↔ a = b)
  | [], b => by cases b <;> simp [beqEntries]
  | a :: as, b => by cases b <;> simp [beqEntries, beqEntry_iff a, beqEntries_iff as]

theorem beqEntry_iff : (a b : String × Json) → (beqEntry a b = true ↔ a = b)
  | (k, a), (k', b) => by simp [beqEntry, beq_iff a]

end

instance : DecidableEq Json := fun a b => decidable_of_iff _ (beq_iff a b)

/-! ## Reading -/

/-- `bool(v)`. -/
def truthy : Json → Bool
  | null => false
  | bool b => b
  | int i => i ≠ 0
  | float x => x.truthy
  | str s => s ≠ ""
  | arr l => !l.isEmpty
  | obj d => !d.isEmpty

/-- The entries of a `dict`; `none` for any other value (`isinstance(v, dict)` fails). -/
def entries? : Json → Option Entries
  | obj d => some d
  | _ => none

/-- What stops `int(v)`. -/
inductive IntError
  | valueError
  | typeError
  | overflowError

/-- `int(v)`. -/
def toInt : Json → Except IntError ℤ
  | bool b => .ok (if b then 1 else 0)
  | int i => .ok i
  | float .nan => .error .valueError
  | float (.inf _) => .error .overflowError
  | float (.fin q) => .ok (q.num.tdiv q.den)
  | str s => match parseInt s with
    | some i => .ok i
    | none => .error .valueError
  | _ => .error .typeError

/-! ## `json.loads` on characters -/

/-- The value of a hexadecimal digit. -/
def hexDigit? (c : Char) : Option ℕ :=
  match digit? c with
  | some d => some d
  | none => if 'a' ≤ lowerChar c ∧ lowerChar c ≤ 'f' then some ((lowerChar c).toNat - 87) else none

/-- The number behind a `\u` escape. -/
def hex4? (a b c d : Char) : Option ℕ := do
  let a ← hexDigit? a
  let b ← hexDigit? b
  let c ← hexDigit? c
  let d ← hexDigit? d
  pure (((a * 16 + b) * 16 + c) * 16 + d)

/-- The body of a string after the opening quote. Control characters are rejected; an escaped
surrogate pair is one character. -/
def parseChars : List Char → Option (List Char × List Char)
  | '"' :: rest => some ([], rest)
  | '\\' :: 'u' :: a :: b :: c :: d :: '\\' :: 'u' :: e :: f :: g :: h :: rest => do
    let high ← hex4? a b c d
    let low ← hex4? e f g h
    if 0xd800 ≤ high ∧ high < 0xdc00 ∧ 0xdc00 ≤ low ∧ low < 0xe000 then
      let (s, rest) ← parseChars rest
      pure (Char.ofNat (0x10000 + (high - 0xd800) * 0x400 + (low - 0xdc00)) :: s, rest)
    else
      let (s, rest) ← parseChars ('\\' :: 'u' :: e :: f :: g :: h :: rest)
      pure (Char.ofNat high :: s, rest)
  | '\\' :: 'u' :: a :: b :: c :: d :: rest => do
    let n ← hex4? a b c d
    let (s, rest) ← parseChars rest
    pure (Char.ofNat n :: s, rest)
  | '\\' :: c :: rest => do
    let c ← match c with
      | '"' => some '"'
      | '\\' => some '\\'
      | '/' => some '/'
      | 'b' => some '\x08'
      | 'f' => some '\x0c'
      | 'n' => some '\n'
      | 'r' => some '\r'
      | 't' => some '\t'
      | _ => none
    let (s, rest) ← parseChars rest
    pure (c :: s, rest)
  | c :: rest =>
    if c.toNat < 0x20 then none
    else do
      let (s, rest) ← parseChars rest
      pure (c :: s, rest)
  | [] => none

def isJsonSpace (c : Char) : Bool := c = ' ' || c = '\t' || c = '\n' || c = '\r'

def skip (s : List Char) : List Char := s.dropWhile isJsonSpace

/-- The digits `s` starts with and what follows; a JSON number has no underscores. -/
def jsonDigits (s : List Char) : List Char × List Char := (s.takeWhile isDigit, s.dropWhile isDigit)

def digitsValue (s : List Char) : ℕ := s.foldl (fun n c => 10 * n + (digit? c).getD 0) 0

/-- An unsigned number: an integer unless a fraction or an exponent follows. -/
def parseUnsigned (s : List Char) : Option (ℕ × Option ℚ × List Char) :=
  let (whole, rest) := match s with
    | '0' :: rest => (['0'], rest)
    | s => jsonDigits s
  if whole = [] then none
  else
    let (frac, rest) := match rest with
      | '.' :: r => if (jsonDigits r).1 = [] then ([], rest) else jsonDigits r
      | r => ([], r)
    let (e, rest) := match exponent? rest with
      | some (e, r) => if rest = r then (none, rest) else (some e, r)
      | none => (none, rest)
    let mantissa := digitsValue (whole ++ frac)
    if frac = [] ∧ e = none then some (mantissa, none, rest)
    else some (mantissa, some (scale mantissa (e.getD 0 - frac.length)), rest)

/-- A number, `NaN` or an infinity. -/
def parseNumber (s : List Char) : Option (Json × List Char) :=
  match s with
  | 'N' :: 'a' :: 'N' :: rest => some (float .nan, rest)
  | 'I' :: 'n' :: 'f' :: 'i' :: 'n' :: 'i' :: 't' :: 'y' :: rest => some (float (.inf false), rest)
  | '-' :: 'I' :: 'n' :: 'f' :: 'i' :: 'n' :: 'i' :: 't' :: 'y' :: rest =>
    some (float (.inf true), rest)
  | '-' :: s => (parseUnsigned s).map fun
    | (n, none, rest) => (int (-n), rest)
    | (_, some q, rest) => (float (.fin (-q)), rest)
  | s => (parseUnsigned s).map fun
    | (n, none, rest) => (int n, rest)
    | (_, some q, rest) => (float (.fin q), rest)

mutual

/-- A value; each nested value takes one unit of `fuel`. -/
def parseValue : ℕ → List Char → Option (Json × List Char)
  | 0, _ => none
  | fuel + 1, s =>
    match s with
    | '"' :: rest => (parseChars rest).map fun (c, rest) => (str (String.ofList c), rest)
    | '{' :: rest =>
      match skip rest with
      | '}' :: rest => some (obj [], rest)
      | rest => parseEntries fuel rest []
    | '[' :: rest =>
      match skip rest with
      | ']' :: rest => some (arr [], rest)
      | rest => parseItems fuel rest []
    | 'n' :: 'u' :: 'l' :: 'l' :: rest => some (null, rest)
    | 't' :: 'r' :: 'u' :: 'e' :: rest => some (bool true, rest)
    | 'f' :: 'a' :: 'l' :: 's' :: 'e' :: rest => some (bool false, rest)
    | s => parseNumber s

/-- The rest of an array; `acc` holds the items read so far, the last one first. -/
def parseItems : ℕ → List Char → List Json → Option (Json × List Char)
  | 0, _, _ => none
  | fuel + 1, s, acc =>
    match parseValue fuel s with
    | none => none
    | some (v, rest) =>
      match skip rest with
      | ',' :: rest => parseItems fuel (skip rest) (v :: acc)
      | ']' :: rest => some (arr (v :: acc).reverse, rest)
      | _ => none

/-- The rest of an object; a repeated key keeps its place and takes the later value. -/
def parseEntries : ℕ → List Char → Entries → Option (Json × List Char)
  | 0, _, _ => none
  | fuel + 1, s, acc =>
    match s with
    | '"' :: rest =>
      match parseChars rest with
      | none => none
      | some (k, rest) =>
        match skip rest with
        | ':' :: rest =>
          match parseValue fuel (skip rest) with
          | none => none
          | some (v, rest) =>
            match skip rest with
            | ',' :: rest => parseEntries fuel (skip rest) (Entries.set acc (String.ofList k) v)
            | '}' :: rest => some (obj (Entries.set acc (String.ofList k) v), rest)
            | _ => none
        | _ => none
    | _ => none

end

/-- `json.loads(s)`; `none` is a `JSONDecodeError`. -/
def parse (s : List Char) : Option Json :=
  match parseValue (2 * s.length + 2) (skip s) with
  | some (v, rest) => if skip rest = [] then some v else none
  | none => none

end Json

end PaperTrade.Runtime
