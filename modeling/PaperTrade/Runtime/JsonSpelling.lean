import PaperTrade.Runtime.NumberSpelling

/-!
# `json.dumps`

`Json.spell` is `json.dumps` with the separators of the call. `Json.parse` reads every value back from its
spelling (`parse_spell`), as long as the keys of each `dict` differ and the floats have finitely many decimals
(`Spellable`). `Json.sortKeys` is the order that `sort_keys=True` writes.
-/

namespace PaperTrade.Runtime

/-! ## Strings -/

section Strings

/-- How `json.dumps` writes a character. -/
def escapeChar (c : Char) : List Char :=
  if c = '"' ∨ c = '\\' then ['\\', c]
  else if c = '\n' then ['\\', 'n']
  else if c = '\r' then ['\\', 'r']
  else if c = '\t' then ['\\', 't']
  else if c = '\x08' then ['\\', 'b']
  else if c = '\x0c' then ['\\', 'f']
  else if c.toNat < 0x20 ∨ (0x7e < c.toNat ∧ c.toNat < 0x10000) then hexEscape c.toNat
  else if 0x10000 ≤ c.toNat then
    hexEscape (0xd800 + (c.toNat - 0x10000) / 0x400) ++
      hexEscape (0xdc00 + (c.toNat - 0x10000) % 0x400)
  else [c]

lemma dumpsString_eq (s : List Char) : dumpsString s = '"' :: s.flatMap escapeChar ++ ['"'] := rfl

namespace Json

/-- The four digits of an escape. -/
lemma exists_hexEscape {n : ℕ} (h : n < 0x10000) :
    ∃ a b c d, hexEscape n = ['\\', 'u', a, b, c, d] ∧ hex4? a b c d = some n := by
  have hdigit : ∀ d < 16, hexDigit? (if d < 10 then Char.ofNat (48 + d) else Char.ofNat (87 + d)) =
      some d := by decide
  refine ⟨_, _, _, _, rfl, ?_⟩
  unfold hex4?
  rw [hdigit _ (Nat.mod_lt _ (by decide)), hdigit _ (Nat.mod_lt _ (by decide)),
    hdigit _ (Nat.mod_lt _ (by decide)), hdigit _ (Nat.mod_lt _ (by decide))]
  simp only [Option.pure_def, Option.bind_eq_bind, Option.bind_some, Option.some.injEq]
  omega

/-- What `parseChars` does with an escape, whatever follows it. -/
lemma parseChars_escape (a b c d : Char) (t : List Char) :
    parseChars ('\\' :: 'u' :: a :: b :: c :: d :: t) =
        (do let n ← hex4? a b c d
            let (s, rest) ← parseChars t
            pure (Char.ofNat n :: s, rest)) ∨
      ∃ e f g h rest, t = '\\' :: 'u' :: e :: f :: g :: h :: rest ∧
        parseChars ('\\' :: 'u' :: a :: b :: c :: d :: t) = (do
          let high ← hex4? a b c d
          let low ← hex4? e f g h
          if 0xd800 ≤ high ∧ high < 0xdc00 ∧ 0xdc00 ≤ low ∧ low < 0xe000 then
            let (s, rest) ← parseChars rest
            pure (Char.ofNat (0x10000 + (high - 0xd800) * 0x400 + (low - 0xdc00)) :: s, rest)
          else
            let (s, rest) ← parseChars t
            pure (Char.ofNat high :: s, rest)) := by
  by_cases hpair : ∃ e f g h rest, t = '\\' :: 'u' :: e :: f :: g :: h :: rest
  · obtain ⟨e, f, g, h, rest, rfl⟩ := hpair
    exact .inr ⟨e, f, g, h, rest, rfl, by rw [parseChars]⟩
  · refine .inl ?_
    rw [parseChars]
    rintro e f g h rest rfl
    exact hpair ⟨e, f, g, h, rest, rfl⟩

/-- An escape that is no escape. -/
lemma parseChars_hex_none {a b c d : Char} (h : hex4? a b c d = none) (t : List Char) :
    parseChars ('\\' :: 'u' :: a :: b :: c :: d :: t) = none := by
  rcases parseChars_escape a b c d t with heq | ⟨_, _, _, _, _, -, heq⟩
  · rw [heq, h]
    rfl
  · rw [heq, h]
    rfl

/-- An escape outside the surrogates is one character. -/
lemma parseChars_hex {a b c d : Char} {n : ℕ} (h : hex4? a b c d = some n)
    (hn : ¬ (0xd800 ≤ n ∧ n < 0xdc00)) (t : List Char) :
    parseChars ('\\' :: 'u' :: a :: b :: c :: d :: t) =
      (parseChars t).map fun p => (Char.ofNat n :: p.1, p.2) := by
  rcases parseChars_escape a b c d t with heq | ⟨e, f, g, g', rest, rfl, heq⟩
  · rw [heq, h]
    cases parseChars t <;> rfl
  · rw [heq, h]
    cases hlow : hex4? e f g g' with
    | none =>
      rw [parseChars_hex_none hlow]
      rfl
    | some low =>
      have hsurrogate : ¬ (0xd800 ≤ n ∧ n < 0xdc00 ∧ 0xdc00 ≤ low ∧ low < 0xe000) := by tauto
      simp only [Option.bind_eq_bind, Option.bind_some, hsurrogate, if_false]
      cases parseChars _ <;> rfl

/-- Two escapes of surrogates are one character. -/
lemma parseChars_pair {a b c d e f g h : Char} {high low : ℕ} (hhigh : hex4? a b c d = some high)
    (hlow : hex4? e f g h = some low) (hh : 0xd800 ≤ high ∧ high < 0xdc00)
    (hl : 0xdc00 ≤ low ∧ low < 0xe000) (t : List Char) :
    parseChars ('\\' :: 'u' :: a :: b :: c :: d :: '\\' :: 'u' :: e :: f :: g :: h :: t) =
      (parseChars t).map fun p =>
        (Char.ofNat (0x10000 + (high - 0xd800) * 0x400 + (low - 0xdc00)) :: p.1, p.2) := by
  rw [parseChars, hhigh, hlow]
  simp only [Option.bind_eq_bind, Option.bind_some, hh, hl, and_self, if_true]
  cases parseChars t <;> rfl

/-- A character is read back. -/
lemma parseChars_escapeChar (c : Char) (t : List Char) :
    parseChars (escapeChar c ++ t) = (parseChars t).map fun p => (c :: p.1, p.2) := by
  have hback : ∀ n, n = c.toNat → Char.ofNat n = c := by
    rintro n rfl
    exact Char.ofNat_toNat c
  unfold escapeChar
  split
  · rename_i hc
    rcases hc with rfl | rfl <;> simp [parseChars] <;> cases parseChars t <;> rfl
  split
  · subst_vars
    simp [parseChars]
    cases parseChars t <;> rfl
  split
  · subst_vars
    simp [parseChars]
    cases parseChars t <;> rfl
  split
  · subst_vars
    simp [parseChars]
    cases parseChars t <;> rfl
  split
  · subst_vars
    simp [parseChars]
    cases parseChars t <;> rfl
  split
  · subst_vars
    simp [parseChars]
    cases parseChars t <;> rfl
  split
  · rename_i hplane
    have hlt : c.toNat < 0x10000 := by omega
    -- a character is no surrogate
    have hvalid := c.valid
    obtain ⟨x, y, z, w, htext, hvalue⟩ := exists_hexEscape hlt
    rw [htext]
    have hsurrogate : ¬ (0xd800 ≤ c.toNat ∧ c.toNat < 0xdc00) := by
      rcases hvalid with hlow | hhigh
      · have : c.toNat < 0xd800 := hlow
        omega
      · have : 0xdfff < c.toNat := hhigh.1
        omega
    show parseChars ('\\' :: 'u' :: x :: y :: z :: w :: t) = _
    rw [parseChars_hex hvalue hsurrogate, hback _ rfl]
  split
  · rename_i hplane
    have hmax : c.toNat < 0x110000 := by
      rcases c.valid with hlow | hhigh
      · have : c.toNat < 0xd800 := hlow
        omega
      · exact hhigh.2
    obtain ⟨x, y, z, w, htext, hvalue⟩ :=
      exists_hexEscape (n := 0xd800 + (c.toNat - 0x10000) / 0x400) (by omega)
    obtain ⟨x', y', z', w', htext', hvalue'⟩ :=
      exists_hexEscape (n := 0xdc00 + (c.toNat - 0x10000) % 0x400) (by omega)
    rw [htext, htext']
    show parseChars ('\\' :: 'u' :: x :: y :: z :: w :: '\\' :: 'u' :: x' :: y' :: z' :: w' :: t) = _
    rw [parseChars_pair hvalue hvalue' (by omega) (by omega), hback _ (by omega)]
  · rename_i hquote _ _ _ _ _ hplain hplane
    have hc : c ≠ '"' ∧ c ≠ '\\' := not_or.mp hquote
    have hcontrol : ¬ c.toNat < 0x20 := by omega
    rw [List.singleton_append, parseChars, if_neg hcontrol]
    · cases parseChars t <;> rfl
    all_goals simp_all

/-- The body of a string is read up to its quote. -/
lemma parseChars_body (s t : List Char) :
    parseChars (s.flatMap escapeChar ++ '"' :: t) = some (s, t) := by
  induction s with
  | nil => rw [List.flatMap_nil, List.nil_append, parseChars]
  | cons c s ih => rw [List.flatMap_cons, List.append_assoc, parseChars_escapeChar, ih, Option.map_some]

end Json

end Strings

namespace Json

/-! ## Values -/

/-- What stands behind a comma and behind a colon. -/
structure Separators where
  comma : List Char
  colon : List Char

/-- `separators=(",", ":")`. -/
def compact : Separators := ⟨[], []⟩

/-- The default. -/
def spaced : Separators := ⟨[' '], [' ']⟩

section Spell

variable (sep : Separators)

mutual

/-- `json.dumps(v)`. -/
def spell : Json → List Char
  | null => ['n', 'u', 'l', 'l']
  | bool true => ['t', 'r', 'u', 'e']
  | bool false => ['f', 'a', 'l', 's', 'e']
  | int i => spellInt i
  | float x => spellFloat x
  | str s => dumpsString s.toList
  | arr [] => ['[', ']']
  | arr (v :: items) => '[' :: (spell v ++ spellItems items)
  | obj [] => ['{', '}']
  | obj ((k, v) :: entries) =>
    '{' :: (dumpsString k.toList ++ ':' :: (sep.colon ++ (spell v ++ spellEntries entries)))

/-- The items behind the first one. -/
def spellItems : List Json → List Char
  | [] => [']']
  | v :: items => ',' :: (sep.comma ++ (spell v ++ spellItems items))

/-- The entries behind the first one. -/
def spellEntries : List (String × Json) → List Char
  | [] => ['}']
  | (k, v) :: entries => ',' :: (sep.comma ++
      (dumpsString k.toList ++ ':' :: (sep.colon ++ (spell v ++ spellEntries entries))))

end

/-- `json.dumps(v)` as a string. -/
def dumps (v : Json) : String := String.ofList (spell sep v)

end Spell

mutual

/-- A value that its spelling determines. -/
def Spellable : Json → Prop
  | float x => x.Decimal
  | arr items => SpellableItems items
  | obj entries => (entries.map Prod.fst).Nodup ∧ SpellableEntries entries
  | _ => True

def SpellableItems : List Json → Prop
  | [] => True
  | v :: items => Spellable v ∧ SpellableItems items

def SpellableEntries : List (String × Json) → Prop
  | [] => True
  | (_, v) :: entries => Spellable v ∧ SpellableEntries entries

end

example : dumps compact (.obj [("a", .arr [.int 1, .float (.fin (1 / 2))]), ("é", .null)]) =
    "\x7b\"a\":[1,0.5],\"\\u00e9\":null\x7d" := by decide +kernel
example : dumps spaced (.arr [.bool true, .str "x"]) = "[true, \"x\"]" := by decide +kernel

/-! ## Reading -/

section Reading

variable {sep : Separators} {fuel : ℕ} {s t rest : List Char}

/-- Only spaces stand behind a comma or a colon. -/
structure Separators.Blank (sep : Separators) : Prop where
  comma : ∀ c ∈ sep.comma, isJsonSpace c = true
  colon : ∀ c ∈ sep.colon, isJsonSpace c = true

lemma blank_compact : compact.Blank := ⟨by simp [compact], by simp [compact]⟩

lemma blank_spaced : spaced.Blank := ⟨by simp [spaced]; decide, by simp [spaced]; decide⟩

lemma skip_blank (h : ∀ c ∈ s, isJsonSpace c = true) : skip (s ++ t) = skip t :=
  List.dropWhile_append_of_pos h

lemma skip_cons {c : Char} (h : isJsonSpace c = false) : skip (c :: t) = c :: t :=
  List.dropWhile_cons_of_neg (by simp [h])

/-- What is a value starts with no space and with no closing bracket. -/
lemma head_of_parseValue {r : Json × List Char} (h : parseValue fuel s = some r) :
    ∃ c t, s = c :: t ∧ isJsonSpace c = false ∧ c ≠ ']' := by
  cases fuel with
  | zero => cases h
  | succ fuel =>
    cases s with
    | nil => cases h
    | cons c t =>
      refine ⟨c, t, rfl, ?_, ?_⟩
      · by_contra hspace
        simp only [isJsonSpace, Bool.not_eq_false, Bool.or_eq_true, decide_eq_true_eq] at hspace
        rcases hspace with ((rfl | rfl) | rfl) | rfl <;> cases h
      · rintro rfl
        cases h

/-- What is a number is no other value. -/
lemma parseValue_of_number {r : Json × List Char} (h : parseNumber s = some r) :
    parseValue (fuel + 1) s = some r := by
  unfold parseValue
  split
  · cases h
  · cases h
  · cases h
  · cases h
  · cases h
  · cases h
  · exact h

lemma parseValue_string (k : String) (t : List Char) :
    parseValue (fuel + 1) (dumpsString k.toList ++ t) = some (.str k, t) := by
  rw [dumpsString_eq, List.append_assoc]
  show (parseChars (k.toList.flatMap escapeChar ++ '"' :: t)).map _ = _
  rw [parseChars_body]
  show some (Json.str (String.ofList k.toList), t) = _
  rw [String.ofList_toList]

lemma set_new {d : Entries} {k : String} (h : k ∉ d.map Prod.fst) (v : Json) :
    Entries.set d k v = d ++ [(k, v)] := by
  induction d with
  | nil => rfl
  | cons e d ih =>
    rw [List.map_cons, List.mem_cons, not_or] at h
    rw [Entries.set, if_neg (Ne.symm h.1), ih h.2, List.cons_append]

/-! One step of each loop. -/

lemma parseItems_last {v : Json} {acc : List Json} (h : parseValue fuel s = some (v, ']' :: rest)) :
    parseItems (fuel + 1) s acc = some (.arr (v :: acc).reverse, rest) := by
  rw [parseItems, h]
  rfl

lemma parseItems_more {v : Json} {acc : List Json} (h : parseValue fuel s = some (v, ',' :: t)) :
    parseItems (fuel + 1) s acc = parseItems fuel (skip t) (v :: acc) := by
  rw [parseItems, h]
  rfl

lemma parseEntries_last {k : String} {v : Json} {d : Entries}
    (h : parseValue fuel (skip s) = some (v, '}' :: rest)) :
    parseEntries (fuel + 1) (dumpsString k.toList ++ ':' :: s) d = some (.obj (d.set k v), rest) := by
  rw [dumpsString_eq, List.append_assoc]
  show parseEntries (fuel + 1) ('"' :: (k.toList.flatMap escapeChar ++ '"' :: ':' :: s)) d = _
  rw [parseEntries, parseChars_body]
  dsimp only
  rw [skip_cons (by decide : isJsonSpace ':' = false)]
  split
  · rename_i heq
    rw [← (List.cons.inj heq).2, h]
    show some (Json.obj (Entries.set d (String.ofList k.toList) v), rest) = _
    rw [String.ofList_toList]
  · rename_i hcolon
    exact absurd rfl (hcolon s)

lemma parseEntries_more {k : String} {v : Json} {d : Entries}
    (h : parseValue fuel (skip s) = some (v, ',' :: t)) :
    parseEntries (fuel + 1) (dumpsString k.toList ++ ':' :: s) d =
      parseEntries fuel (skip t) (d.set k v) := by
  rw [dumpsString_eq, List.append_assoc]
  show parseEntries (fuel + 1) ('"' :: (k.toList.flatMap escapeChar ++ '"' :: ':' :: s)) d = _
  rw [parseEntries, parseChars_body]
  dsimp only
  rw [skip_cons (by decide : isJsonSpace ':' = false)]
  split
  · rename_i heq
    rw [← (List.cons.inj heq).2, h]
    show parseEntries fuel (skip t) (Entries.set d (String.ofList k.toList) v) = _
    rw [String.ofList_toList]
  · rename_i hcolon
    exact absurd rfl (hcolon s)

/-- An array with an item is read by the loop. -/
lemma parseValue_arr (h : ∃ c t, s = c :: t ∧ isJsonSpace c = false ∧ c ≠ ']') :
    parseValue (fuel + 1) ('[' :: s) = parseItems fuel s [] := by
  obtain ⟨c, t, rfl, hspace, hc⟩ := h
  rw [parseValue, skip_cons hspace]
  split
  · rename_i heq
    exact absurd (List.cons.inj heq).1 hc
  · rfl

/-- So is an object with an entry. -/
lemma parseValue_obj (k : List Char) (t : List Char) :
    parseValue (fuel + 1) ('{' :: (dumpsString k ++ t)) = parseEntries fuel (dumpsString k ++ t) [] := by
  rw [dumpsString_eq, List.append_assoc]
  rfl

lemma delimited_spellItems (items : List Json) : Delimited (spellItems sep items ++ rest) := by
  cases items <;> exact delimited_cons (by decide)

lemma delimited_spellEntries (entries : List (String × Json)) :
    Delimited (spellEntries sep entries ++ rest) := by
  cases entries <;> exact delimited_cons (by decide)

lemma not_mem_of_nodup {d entries : Entries} {k : String} {v : Json}
    (h : ((d ++ (k, v) :: entries).map Prod.fst).Nodup) : k ∉ d.map Prod.fst := by
  rw [List.map_append, List.map_cons] at h
  exact fun hk => (List.nodup_append.mp h).2.2 k hk k List.mem_cons_self rfl

lemma skip_of_parseValue {r : Json × List Char} (h : parseValue fuel s = some r) : skip s = s := by
  obtain ⟨c, t, rfl, hspace, -⟩ := head_of_parseValue h
  exact skip_cons hspace

lemma length_spell_pos (sep : Separators) {v : Json} (hv : Spellable v) : 0 < (spell sep v).length := by
  rw [List.length_pos_iff]
  cases v with
  | null => exact List.cons_ne_nil _ _
  | bool b => cases b <;> exact List.cons_ne_nil _ _
  | int i =>
    rw [spell, spellInt]
    split
    · exact List.cons_ne_nil _ _
    · exact Nat.toDigits_ne_nil
  | float x =>
    intro hnil
    have hread := parseNumber_spellFloat (by simpa [Spellable] using hv : x.Decimal) delimited_nil
    rw [spell] at hnil
    rw [hnil] at hread
    cases hread
  | str s => exact List.cons_ne_nil _ _
  | arr items => cases items <;> exact List.cons_ne_nil _ _
  | obj entries => cases entries <;> exact List.cons_ne_nil _ _

mutual

/-- A value is read up to the delimiter; every character of it may cost one unit of fuel. -/
theorem parseValue_spell (hsep : sep.Blank) : (v : Json) → Spellable v → ∀ (fuel : ℕ) (rest : List Char),
    (spell sep v).length ≤ fuel → Delimited rest →
      parseValue fuel (spell sep v ++ rest) = some (v, rest)
  | .null, _, fuel + 1, rest, _, _ => rfl
  | .bool true, _, fuel + 1, rest, _, _ => rfl
  | .bool false, _, fuel + 1, rest, _, _ => rfl
  | .int i, _, fuel + 1, rest, _, hrest => parseValue_of_number (parseNumber_spellInt i hrest)
  | .float x, hv, fuel + 1, rest, _, hrest =>
    parseValue_of_number (parseNumber_spellFloat (by simpa [Spellable] using hv) hrest)
  | .str s, _, fuel + 1, rest, _, _ => parseValue_string s rest
  | .arr [], _, fuel + 1, rest, _, _ => rfl
  | .arr (v :: items), hv, fuel + 1, rest, hfuel, _ => by
    simp only [Spellable, SpellableItems] at hv
    simp only [spell, List.length_cons, List.length_append] at hfuel
    have hfirst := parseValue_spell hsep v hv.1 fuel (spellItems sep items ++ rest) (by omega)
      (delimited_spellItems items)
    rw [spell, List.cons_append, List.append_assoc, parseValue_arr (head_of_parseValue hfirst)]
    exact parseItems_spell hsep v items hv.1 hv.2 fuel [] rest (by omega)
  | .obj [], _, fuel + 1, rest, _, _ => rfl
  | .obj ((k, v) :: entries), hv, fuel + 1, rest, hfuel, _ => by
    simp only [Spellable, SpellableEntries] at hv
    simp only [spell, List.length_cons, List.length_append] at hfuel
    rw [spell, List.cons_append, List.append_assoc, parseValue_obj, List.cons_append,
      List.append_assoc, List.append_assoc]
    exact parseEntries_spell hsep k v entries hv.2.1 hv.2.2 fuel [] rest hv.1
      (by simp only [List.length_cons, List.length_append]; omega)
  | v, hv, 0, _, hfuel, _ => absurd (length_spell_pos sep hv) (by omega)

theorem parseItems_spell (hsep : sep.Blank) : (v : Json) → (items : List Json) → Spellable v →
    SpellableItems items → ∀ (fuel : ℕ) (acc : List Json) (rest : List Char),
      (spell sep v).length + (spellItems sep items).length ≤ fuel →
        parseItems fuel (spell sep v ++ (spellItems sep items ++ rest)) acc =
          some (.arr (acc.reverse ++ v :: items), rest)
  | v, [], hv, _, fuel + 1, acc, rest, hfuel => by
    simp only [spellItems, List.length_singleton] at hfuel
    have hfirst := parseValue_spell hsep v hv fuel (']' :: rest) (by omega) (delimited_cons (by decide))
    show parseItems (fuel + 1) (spell sep v ++ ']' :: rest) acc = _
    rw [parseItems_last hfirst, List.reverse_cons]
  | v, w :: items, hv, hitems, fuel + 1, acc, rest, hfuel => by
    simp only [spellItems, List.length_cons, List.length_append] at hfuel
    simp only [SpellableItems] at hitems
    have hfirst := parseValue_spell hsep v hv fuel
      (',' :: (sep.comma ++ (spell sep w ++ (spellItems sep items ++ rest)))) (by omega)
      (delimited_cons (by decide))
    have hnext := parseValue_spell hsep w hitems.1 fuel (spellItems sep items ++ rest) (by omega)
      (delimited_spellItems items)
    rw [spellItems, List.cons_append, List.append_assoc, List.append_assoc, parseItems_more hfirst,
      skip_blank hsep.comma, skip_of_parseValue hnext,
      parseItems_spell hsep w items hitems.1 hitems.2 fuel (v :: acc) rest (by omega)]
    simp
  | v, _, hv, _, 0, _, _, hfuel => absurd (length_spell_pos sep hv) (by omega)

theorem parseEntries_spell (hsep : sep.Blank) : (k : String) → (v : Json) →
    (entries : List (String × Json)) → Spellable v → SpellableEntries entries →
      ∀ (fuel : ℕ) (d : Entries) (rest : List Char), ((d ++ (k, v) :: entries).map Prod.fst).Nodup →
        (dumpsString k.toList).length + (':' :: (sep.colon ++ (spell sep v ++
          spellEntries sep entries))).length ≤ fuel →
            parseEntries fuel (dumpsString k.toList ++ ':' :: (sep.colon ++ (spell sep v ++
              (spellEntries sep entries ++ rest)))) d = some (.obj (d ++ (k, v) :: entries), rest)
  | k, v, [], hv, _, fuel + 1, d, rest, hnodup, hfuel => by
    simp only [spellEntries, List.length_cons, List.length_append] at hfuel
    have hvalue := parseValue_spell hsep v hv fuel ('}' :: rest) (by omega) (delimited_cons (by decide))
    have hread : parseValue fuel (skip (sep.colon ++ (spell sep v ++ '}' :: rest))) =
        some (v, '}' :: rest) := by
      rw [skip_blank hsep.colon, skip_of_parseValue hvalue, hvalue]
    show parseEntries (fuel + 1)
      (dumpsString k.toList ++ ':' :: (sep.colon ++ (spell sep v ++ '}' :: rest))) d = _
    rw [parseEntries_last hread, set_new (not_mem_of_nodup hnodup)]
  | k, v, (k', w) :: entries, hv, hentries, fuel + 1, d, rest, hnodup, hfuel => by
    simp only [SpellableEntries] at hentries
    simp only [spellEntries, List.length_cons, List.length_append] at hfuel
    have hvalue := parseValue_spell hsep v hv fuel
      (',' :: (sep.comma ++ (dumpsString k'.toList ++ ':' :: (sep.colon ++
        (spell sep w ++ (spellEntries sep entries ++ rest)))))) (by omega) (delimited_cons (by decide))
    have hread := parseEntries_spell hsep k' w entries hentries.1 hentries.2 fuel (d ++ [(k, v)]) rest
      (by simpa using hnodup) (by simp only [List.length_cons, List.length_append]; omega)
    have hskip : parseValue fuel (skip (sep.colon ++ (spell sep v ++ (',' :: (sep.comma ++
        (dumpsString k'.toList ++ ':' :: (sep.colon ++
          (spell sep w ++ (spellEntries sep entries ++ rest))))))))) = some (v, ',' :: (sep.comma ++
        (dumpsString k'.toList ++ ':' :: (sep.colon ++
          (spell sep w ++ (spellEntries sep entries ++ rest)))))) := by
      rw [skip_blank hsep.colon, skip_of_parseValue hvalue, hvalue]
    have hquote : ∀ t, skip (dumpsString k'.toList ++ t) = dumpsString k'.toList ++ t := fun _ => rfl
    simp only [spellEntries, List.cons_append, List.append_assoc]
    rw [parseEntries_more hskip, skip_blank hsep.comma, hquote, set_new (not_mem_of_nodup hnodup), hread]
    simp
  | k, v, _, _, _, 0, _, _, _, hfuel => by
    simp only [List.length_cons] at hfuel
    omega

end

/-- `json.loads` of `json.dumps` of a value is the value. -/
theorem parse_spell (hsep : sep.Blank) {v : Json} (hv : Spellable v) : parse (spell sep v) = some v := by
  have hread := parseValue_spell hsep v hv (2 * (spell sep v).length + 2) [] (by omega) delimited_nil
  rw [List.append_nil] at hread
  unfold parse
  rw [skip_of_parseValue hread, hread]
  rfl

end Reading

/-! ## Sorted keys -/

section SortKeys

mutual

/-- The order in which `sort_keys=True` writes a value. -/
def sortKeys : Json → Json
  | arr items => arr (sortItems items)
  | obj entries => obj ((sortValues entries).insertionSort fun e f => e.1 ≤ f.1)
  | v => v

def sortItems : List Json → List Json
  | [] => []
  | v :: items => sortKeys v :: sortItems items

def sortValues : List (String × Json) → List (String × Json)
  | [] => []
  | (k, v) :: entries => (k, sortKeys v) :: sortValues entries

end

lemma spellableEntries_iff {entries : List (String × Json)} :
    SpellableEntries entries ↔ ∀ e ∈ entries, Spellable e.2 := by
  induction entries with
  | nil => simp [SpellableEntries]
  | cons e entries ih => simp [SpellableEntries, ih]

lemma map_fst_sortValues (entries : List (String × Json)) :
    (sortValues entries).map Prod.fst = entries.map Prod.fst := by
  induction entries with
  | nil => rfl
  | cons e entries ih => simp [sortValues, ih]

mutual

theorem spellable_sortKeys : (v : Json) → Spellable v → Spellable (sortKeys v)
  | .null, h => h
  | .bool _, h => h
  | .int _, h => h
  | .float _, h => h
  | .str _, h => h
  | .arr items, h => by
    simp only [Spellable] at h
    simpa only [sortKeys, Spellable] using spellable_sortItems items h
  | .obj entries, h => by
    simp only [Spellable] at h
    have hperm := List.perm_insertionSort (fun e f : String × Json => e.1 ≤ f.1) (sortValues entries)
    simp only [sortKeys, Spellable]
    refine ⟨(hperm.map Prod.fst).nodup_iff.mpr (map_fst_sortValues entries ▸ h.1), ?_⟩
    rw [spellableEntries_iff]
    intro e he
    exact spellableEntries_iff.mp (spellable_sortValues entries h.2) e (hperm.mem_iff.mp he)

theorem spellable_sortItems : (items : List Json) → SpellableItems items → SpellableItems (sortItems items)
  | [], _ => trivial
  | v :: items, h => by
    simp only [SpellableItems] at h
    simpa only [sortItems, SpellableItems] using
      ⟨spellable_sortKeys v h.1, spellable_sortItems items h.2⟩

theorem spellable_sortValues : (entries : List (String × Json)) → SpellableEntries entries →
    SpellableEntries (sortValues entries)
  | [], _ => trivial
  | (k, v) :: entries, h => by
    simp only [SpellableEntries] at h
    simpa only [sortValues, SpellableEntries] using
      ⟨spellable_sortKeys v h.1, spellable_sortValues entries h.2⟩

end

lemma get?_eq_some_iff {d : Entries} (hnodup : (d.map Prod.fst).Nodup) {k : String} {v : Json} :
    d.get? k = some v ↔ (k, v) ∈ d := by
  induction d with
  | nil => simp [Entries.get?]
  | cons e d ih =>
    obtain ⟨hfresh, hnodup⟩ := List.nodup_cons.mp hnodup
    have hrest := ih hnodup
    by_cases hk : e.1 = k
    · have hnot : (k, v) ∉ d := fun hmem => hfresh (List.mem_map.mpr ⟨_, hmem, hk.symm⟩)
      simp [Entries.get?, hk, hnot, Prod.ext_iff, eq_comm]
    · simp [Entries.get?, hk, hrest, Prod.ext_iff, Ne.symm hk]

lemma mem_sortValues {entries : Entries} {k : String} {w : Json} :
    (k, w) ∈ sortValues entries ↔ ∃ v, (k, v) ∈ entries ∧ sortKeys v = w := by
  induction entries with
  | nil => simp [sortValues]
  | cons e entries ih =>
    rw [sortValues, List.mem_cons, ih]
    constructor
    · rintro (h | ⟨v, hv, h⟩)
      · obtain ⟨rfl, rfl⟩ := Prod.mk.inj h
        exact ⟨e.2, List.mem_cons_self, rfl⟩
      · exact ⟨v, List.mem_cons_of_mem _ hv, h⟩
    · rintro ⟨v, hv, rfl⟩
      rcases List.mem_cons.mp hv with rfl | hv
      · exact .inl rfl
      · exact .inr ⟨v, hv, rfl⟩

/-- Sorting changes no look-up. -/
lemma get?_sorted {d : Entries} (hnodup : (d.map Prod.fst).Nodup) {k : String} {v : Json}
    (h : d.get? k = some v) :
    Entries.get? ((sortValues d).insertionSort fun e f => e.1 ≤ f.1) k = some (sortKeys v) := by
  have hperm := List.perm_insertionSort (fun e f : String × Json => e.1 ≤ f.1) (sortValues d)
  have hsorted := (hperm.map Prod.fst).nodup_iff.mpr (map_fst_sortValues d ▸ hnodup)
  rw [get?_eq_some_iff hsorted, hperm.mem_iff, mem_sortValues]
  exact ⟨v, (get?_eq_some_iff hnodup).mp h, rfl⟩

end SortKeys

/-! ## Printable characters -/

section Printable

variable {s t : List Char}

/-- The characters between the blank and the tilde; none of them breaks a line. -/
def Printable (s : List Char) : Prop := ∀ c ∈ s, 0x20 ≤ c.toNat ∧ c.toNat ≤ 0x7e

instance : Decidable (Printable s) := List.decidableBAll _ s

lemma Printable.append (hs : Printable s) (ht : Printable t) : Printable (s ++ t) := by
  intro c hc
  rcases List.mem_append.mp hc with hc | hc
  · exact hs c hc
  · exact ht c hc

lemma Printable.cons {c : Char} (hc : Printable [c]) (ht : Printable t) : Printable (c :: t) :=
  hc.append ht

lemma printable_digits (h : AllDigits s) : Printable s := by
  intro c hc
  have hdigit := h c hc
  unfold isDigit digit? at hdigit
  split at hdigit
  · rename_i hrange
    have hlow : '0'.toNat ≤ c.toNat := hrange.1
    have hhigh : c.toNat ≤ '9'.toNat := hrange.2
    have h0 : '0'.toNat = 48 := rfl
    have h9 : '9'.toNat = 57 := rfl
    omega
  · cases hdigit

lemma printable_exponentText (e : ℤ) : Printable (exponentText e) := by
  have hdigits := printable_digits (allDigits_toDigits e.natAbs)
  unfold exponentText
  refine Printable.cons ?_ ?_
  · split <;> decide
  · split
    · exact Printable.cons (by decide) hdigits
    · exact hdigits

lemma printable_placePoint (hs : AllDigits s) (point : ℤ) : Printable (placePoint s point) := by
  have hdigits := printable_digits hs
  have hzeros : ∀ n, Printable (List.replicate n '0') := fun n => printable_digits (allDigits_zeros n)
  unfold placePoint
  split
  · cases s with
    | nil => exact fun c hc => absurd hc List.not_mem_nil
    | cons d ds =>
      have hd : Printable [d] := fun c hc => hdigits c (by simp_all)
      have hds : Printable ds := fun c hc => hdigits c (List.mem_cons_of_mem _ hc)
      have he : Printable ('e' :: exponentText (point - 1)) :=
        Printable.cons (by decide) (printable_exponentText _)
      cases ds with
      | nil => exact hd.append he
      | cons c ds => exact hd.append (Printable.cons (by decide) (hds.append he))
  split
  · exact Printable.cons (by decide) (Printable.cons (by decide) ((hzeros _).append hdigits))
  split
  · exact Printable.append (fun c hc => hdigits c (List.mem_of_mem_take hc))
      (Printable.cons (by decide) fun c hc => hdigits c (List.mem_of_mem_drop hc))
  · exact (hdigits.append (hzeros _)).append (by decide)

lemma printable_spellFloat (x : PyFloat) : Printable (spellFloat x) := by
  have hpositive : ∀ q, Printable (spellPositive q) := fun q =>
    printable_placePoint (fun c hc =>
      allDigits_toDigits _ c ((List.rdropWhile_prefix _ _).mem hc)) _
  cases x with
  | nan => decide
  | inf negative => cases negative <;> decide
  | fin q =>
    rw [spellFloat]
    split
    · decide
    split
    · exact Printable.cons (by decide) (hpositive _)
    · exact hpositive q

lemma printable_spellInt (i : ℤ) : Printable (spellInt i) := by
  have hdigits := printable_digits (allDigits_toDigits i.natAbs)
  unfold spellInt
  split
  · exact Printable.cons (by decide) hdigits
  · exact hdigits

lemma printable_hexEscape (n : ℕ) : Printable (hexEscape n) := by
  have hdigit : ∀ d < 16, Printable [if d < 10 then Char.ofNat (48 + d) else Char.ofNat (87 + d)] := by
    decide
  have hmod : ∀ m, Printable [if m % 16 < 10 then Char.ofNat (48 + m % 16)
      else Char.ofNat (87 + m % 16)] := fun m => hdigit _ (Nat.mod_lt _ (by decide))
  exact Printable.cons (by decide) (Printable.cons (by decide) (Printable.cons (hmod _)
    (Printable.cons (hmod _) (Printable.cons (hmod _) (hmod _)))))

lemma printable_escapeChar (c : Char) : Printable (escapeChar c) := by
  unfold escapeChar
  split
  · rename_i h
    rcases h with rfl | rfl <;> decide
  split
  · decide
  split
  · decide
  split
  · decide
  split
  · decide
  split
  · decide
  split
  · exact printable_hexEscape _
  split
  · exact (printable_hexEscape _).append (printable_hexEscape _)
  · rename_i hplain hplane
    intro d hd
    obtain rfl := List.mem_singleton.mp hd
    omega

lemma printable_dumpsString (s : List Char) : Printable (dumpsString s) := by
  rw [dumpsString_eq]
  refine Printable.cons (by decide) (Printable.append (fun c hc => ?_) (by decide))
  obtain ⟨d, -, hd⟩ := List.mem_flatMap.mp hc
  exact printable_escapeChar d c hd

/-- What stands behind the commas and colons is printable. -/
structure Separators.Printable (sep : Separators) : Prop where
  comma : Json.Printable sep.comma
  colon : Json.Printable sep.colon

lemma printable_compact : compact.Printable :=
  ⟨fun _ hc => absurd hc List.not_mem_nil, fun _ hc => absurd hc List.not_mem_nil⟩

mutual

/-- `json.dumps` writes printable characters only. -/
theorem printable_spell {sep : Separators} (hsep : sep.Printable) : (v : Json) → Printable (spell sep v)
  | .null => (by decide : Printable ['n', 'u', 'l', 'l'])
  | .bool true => (by decide : Printable ['t', 'r', 'u', 'e'])
  | .bool false => (by decide : Printable ['f', 'a', 'l', 's', 'e'])
  | .int i => printable_spellInt i
  | .float x => printable_spellFloat x
  | .str s => printable_dumpsString s.toList
  | .arr [] => (by decide : Printable ['[', ']'])
  | .arr (v :: items) => Printable.cons (by decide)
      ((printable_spell hsep v).append (printable_spellItems hsep items))
  | .obj [] => (by decide : Printable ['{', '}'])
  | .obj ((k, v) :: entries) => Printable.cons (by decide) ((printable_dumpsString _).append
      (Printable.cons (by decide) (hsep.colon.append
        ((printable_spell hsep v).append (printable_spellEntries hsep entries)))))

theorem printable_spellItems {sep : Separators} (hsep : sep.Printable) :
    (items : List Json) → Printable (spellItems sep items)
  | [] => (by decide : Printable [']'])
  | v :: items => Printable.cons (by decide) (hsep.comma.append
      ((printable_spell hsep v).append (printable_spellItems hsep items)))

theorem printable_spellEntries {sep : Separators} (hsep : sep.Printable) :
    (entries : List (String × Json)) → Printable (spellEntries sep entries)
  | [] => (by decide : Printable ['}'])
  | (k, v) :: entries => Printable.cons (by decide) (hsep.comma.append
      ((printable_dumpsString _).append (Printable.cons (by decide) (hsep.colon.append
        ((printable_spell hsep v).append (printable_spellEntries hsep entries))))))

end

end Printable

end Json

end PaperTrade.Runtime
