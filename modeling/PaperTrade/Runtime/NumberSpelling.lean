import Mathlib.Data.List.DropRight
import PaperTrade.Runtime.Isoformat
import PaperTrade.Runtime.Text

/-!
# How a number is spelled

`spellInt` and `spellFloat` are `json.dumps` of a number: a float has the shortest digits, and an exponent
when it is large or small. `Json.parseNumber` reads back what they write, up to the delimiter that follows
(`parseNumber_spellInt`, `parseNumber_spellFloat`). A float has to be a number with finitely many decimals,
as every float of the machine is.
-/

namespace PaperTrade.Runtime

open Json

/-! ## Spelling -/

/-- The digits that count: those of the number without the zeros at its end. -/
def trimZeros (ds : List Char) : List Char := ds.rdropWhile (· = '0')

/-- The exponent of a literal has a sign and at least two digits. -/
def exponentText (e : ℤ) : List Char :=
  let ds := Nat.toDigits 10 e.natAbs
  (if e < 0 then '-' else '+') :: (if ds.length < 2 then '0' :: ds else ds)

/-- The digits `ds` with the decimal point behind the first `point` of them. -/
def placePoint (ds : List Char) (point : ℤ) : List Char :=
  if point ≤ -4 ∨ 16 < point then
    match ds with
    | [] => []
    | [d] => d :: 'e' :: exponentText (point - 1)
    | d :: ds => d :: '.' :: (ds ++ 'e' :: exponentText (point - 1))
  else if point ≤ 0 then '0' :: '.' :: (List.replicate (-point).toNat '0' ++ ds)
  else if point < ds.length then ds.take point.toNat ++ '.' :: ds.drop point.toNat
  else ds ++ List.replicate (point.toNat - ds.length) '0' ++ ['.', '0']

/-- The digits of a positive number up to a place behind which it has none. -/
def spellPositive (q : ℚ) : List Char :=
  let places := q.den.log2
  let ds := Nat.toDigits 10 (q.num.natAbs * (10 ^ places / q.den))
  placePoint (trimZeros ds) (ds.length - places)

/-- `json.dumps(i)` of an integer. -/
def spellInt (i : ℤ) : List Char :=
  if i < 0 then '-' :: Nat.toDigits 10 i.natAbs else Nat.toDigits 10 i.natAbs

/-- `json.dumps(x)` of a float. -/
def spellFloat : PyFloat → List Char
  | .nan => ['N', 'a', 'N']
  | .inf false => ['I', 'n', 'f', 'i', 'n', 'i', 't', 'y']
  | .inf true => ['-', 'I', 'n', 'f', 'i', 'n', 'i', 't', 'y']
  | .fin q =>
    if q = 0 then ['0', '.', '0']
    else if q < 0 then '-' :: spellPositive (-q) else spellPositive q

/-- A number with finitely many decimals; as its denominator has no more prime factors than bits, they
fit before that place. -/
def PyFloat.Decimal : PyFloat → Prop
  | .fin q => q.den ∣ 10 ^ q.den.log2
  | _ => True

instance : DecidablePred PyFloat.Decimal
  | .fin q => inferInstanceAs (Decidable (q.den ∣ 10 ^ q.den.log2))
  | .nan | .inf _ => inferInstanceAs (Decidable True)

example : spellFloat (.fin (-1 / 16)) = "-0.0625".toList := by decide +kernel
example : spellFloat (.fin (3 / 200000)) = "1.5e-05".toList := by decide +kernel
example : spellFloat (.fin (10 ^ 22)) = "1e+22".toList := by decide +kernel
example : spellFloat (.fin 120) = "120.0".toList := by decide +kernel

/-! ## Decimals -/

namespace PyFloat.Decimal

variable {p q : ℚ}

/-- The place does not matter: a number that has finitely many decimals has them before it. -/
theorem of_dvd {k : ℕ} (h : q.den ∣ 10 ^ k) : Decimal (.fin q) := by
  show q.den ∣ 10 ^ q.den.log2
  rw [show 10 = 2 * 5 from rfl, mul_pow] at h ⊢
  obtain ⟨x, y, hx, hy, hxy⟩ := Nat.dvd_mul.mp h
  obtain ⟨a, -, rfl⟩ := (Nat.dvd_prime_pow Nat.prime_two).mp hx
  obtain ⟨b, -, rfl⟩ := (Nat.dvd_prime_pow Nat.prime_five).mp hy
  have htwo : 2 ^ a ≤ q.den := Nat.le_of_dvd q.den_pos ⟨_, hxy.symm⟩
  have hfive : 2 ^ b ≤ q.den :=
    (Nat.pow_le_pow_left (by decide : 2 ≤ 5) b).trans (Nat.le_of_dvd q.den_pos ⟨2 ^ a, by rw [← hxy, mul_comm]⟩)
  have ha : a ≤ q.den.log2 := (Nat.le_log2 q.den_ne_zero).mpr htwo
  have hb : b ≤ q.den.log2 := (Nat.le_log2 q.den_ne_zero).mpr hfive
  calc q.den = 2 ^ a * 5 ^ b := hxy.symm
    _ ∣ 2 ^ q.den.log2 * 5 ^ q.den.log2 := mul_dvd_mul (pow_dvd_pow 2 ha) (pow_dvd_pow 5 hb)

lemma add (hp : Decimal (.fin p)) (hq : Decimal (.fin q)) : Decimal (.fin (p + q)) := by
  refine of_dvd (k := p.den.log2 + q.den.log2) ((Rat.add_den_dvd p q).trans ?_)
  rw [pow_add]
  exact mul_dvd_mul hp hq

lemma abs (hp : Decimal (.fin p)) : Decimal (.fin |p|) := by
  have hden : |p|.den = p.den := by
    rcases abs_choice p with h | h <;> rw [h]
    exact Rat.neg_den p
  show |p|.den ∣ 10 ^ |p|.den.log2
  rw [hden]
  exact hp

lemma intCast (i : ℤ) : Decimal (.fin i) := by
  show (i : ℚ).den ∣ _
  rw [Rat.den_intCast]
  exact one_dvd _

end PyFloat.Decimal

/-! ## Digits -/

section Digits

variable {ds rest : List Char}

def AllDigits (ds : List Char) : Prop := ∀ c ∈ ds, isDigit c = true

/-- What may follow a value inside an array or an object, or the end of the text. -/
def Delimited (rest : List Char) : Prop := ∀ c ∈ rest.head?, c = ',' ∨ c = ']' ∨ c = '}'

lemma delimited_nil : Delimited [] := by simp [Delimited]

lemma delimited_cons {c : Char} (h : c = ',' ∨ c = ']' ∨ c = '}') : Delimited (c :: rest) := by
  intro d hd
  obtain rfl : c = d := by simpa using hd
  exact h

lemma AllDigits.append {es : List Char} (hd : AllDigits ds) (he : AllDigits es) :
    AllDigits (ds ++ es) := by
  intro c hc
  rcases List.mem_append.mp hc with hc | hc
  · exact hd c hc
  · exact he c hc

lemma isDigit_of_core {c : Char} (h : c.isDigit = true) : isDigit c = true := by
  have hrange : '0' ≤ c ∧ c ≤ '9' := by
    simpa [Char.isDigit, Char.le_def, UInt32.le_iff_toNat_le] using h
  simp [isDigit, digit?, hrange]

lemma allDigits_toDigits (n : ℕ) : AllDigits (Nat.toDigits 10 n) := fun _ hc =>
  isDigit_of_core (Nat.isDigit_of_mem_toDigits (by decide) le_rfl hc)

lemma allDigits_zeros (n : ℕ) : AllDigits (List.replicate n '0') := by
  intro c hc
  rw [List.eq_of_mem_replicate hc]
  decide

lemma allDigits_zero : AllDigits ['0'] := allDigits_zeros 1

lemma digitsValue_eq (h : AllDigits ds) : digitsValue ds = Nat.ofDigitChars 10 ds 0 := by
  unfold digitsValue Nat.ofDigitChars
  refine List.foldl_ext _ _ _ fun n c hc => ?_
  have hdigit := h c hc
  unfold isDigit at hdigit
  unfold digit? at hdigit ⊢
  split at hdigit <;> simp_all

lemma digitsValue_append {es : List Char} (hd : AllDigits ds) (he : AllDigits es) :
    digitsValue (ds ++ es) = digitsValue ds * 10 ^ es.length + digitsValue es := by
  rw [digitsValue_eq (hd.append he), digitsValue_eq hd, digitsValue_eq he, Nat.ofDigitChars_append,
    Nat.ofDigitChars_eq_ofDigitChars_zero, mul_comm]

lemma digitsValue_zeros (n : ℕ) : digitsValue (List.replicate n '0') = 0 := by
  rw [digitsValue_eq (allDigits_zeros n), Nat.ofDigitChars_replicate_zero, mul_zero]

lemma digitsValue_toDigits (n : ℕ) : digitsValue (Nat.toDigits 10 n) = n := by
  rw [digitsValue_eq (allDigits_toDigits n), Nat.ofDigitChars_ten_toDigits]

/-- The zeros at the end are all that is trimmed. -/
lemma trimZeros_append (ds : List Char) :
    ∃ k, trimZeros ds ++ List.replicate k '0' = ds ∧ ds.length = (trimZeros ds).length + k := by
  refine ⟨(ds.rtakeWhile (· = '0')).length, ?_, ?_⟩
  · have hzeros : List.replicate (ds.rtakeWhile (· = '0')).length '0' = ds.rtakeWhile (· = '0') := by
      rw [eq_comm, List.eq_replicate_iff]
      exact ⟨rfl, fun c hc => by simpa using List.mem_rtakeWhile_imp hc⟩
    rw [hzeros]
    exact List.rdropWhile_append_rtakeWhile
  · show ds.length = (ds.rdropWhile (· = '0')).length + _
    rw [← List.length_append, List.rdropWhile_append_rtakeWhile]

/-- The digits of a positive number do not start with a zero. -/
lemma head?_toDigits {n : ℕ} (h : 0 < n) : (Nat.toDigits 10 n).head? ≠ some '0' := by
  induction n using Nat.strong_induction_on with
  | _ n ih =>
    by_cases hlt : n < 10
    · rw [Nat.toDigits_of_lt_base hlt]
      have hall : ∀ n < 10, 0 < n → [Nat.digitChar n].head? ≠ some '0' := by decide
      exact hall n hlt h
    · rw [Nat.toDigits_of_base_le (by decide) (by omega), List.head?_append_of_ne_nil _ Nat.toDigits_ne_nil]
      exact ih (n / 10) (by omega) (by omega)

end Digits

/-! ## Reading -/

section Reading

variable {ds rest : List Char}

/-- A character that ends a run of digits, and is no underscore. -/
def Stops (rest : List Char) : Prop := ∀ c ∈ rest.head?, isDigit c = false ∧ c ≠ '_'

lemma Delimited.stops (h : Delimited rest) : Stops rest := by
  intro c hc
  rcases h c hc with rfl | rfl | rfl <;> decide

lemma stops_cons {c : Char} (h : isDigit c = false ∧ c ≠ '_') : Stops (c :: rest) := by
  intro d hd
  obtain rfl : c = d := by simpa using hd
  exact h

lemma jsonDigits_append (hds : AllDigits ds) (hrest : Stops rest) :
    jsonDigits (ds ++ rest) = (ds, rest) := by
  have hstop : rest.takeWhile isDigit = [] ∧ rest.dropWhile isDigit = rest := by
    cases rest with
    | nil => simp
    | cons c rest =>
      have hc := (hrest c (by simp)).1
      simp [hc]
  rw [jsonDigits, List.takeWhile_append_of_pos hds, List.dropWhile_append_of_pos hds, hstop.1, hstop.2,
    List.append_nil]

/-- `digits` reads a run of digits to its end. -/
lemma digits_append (hds : AllDigits ds) (hrest : Stops rest) (count value : ℕ) :
    digits (ds ++ rest) count value =
      (count + ds.length, value * 10 ^ ds.length + digitsValue ds, rest) := by
  induction ds generalizing count value with
  | nil =>
    cases rest with
    | nil => simp [digits, digitsValue]
    | cons c rest =>
      obtain ⟨hdigit, hunderscore⟩ := hrest c (by simp)
      have hnone : digit? c = none := by simpa [isDigit] using hdigit
      simp [digits, hnone, hunderscore, digitsValue]
  | cons d ds ih =>
    have hd : isDigit d = true := hds d List.mem_cons_self
    obtain ⟨n, hn⟩ := Option.isSome_iff_exists.mp hd
    have hunderscore : d ≠ '_' := by
      rintro rfl
      cases hn
    have hvalue : digitsValue (d :: ds) = n * 10 ^ ds.length + digitsValue ds := by
      have hone : digitsValue [d] = n := by simp [digitsValue, hn]
      rw [← List.singleton_append, digitsValue_append (by simpa [AllDigits] using hd)
        fun c hc => hds c (List.mem_cons_of_mem _ hc), hone]
    have hstep : digits (d :: ds ++ rest) count value =
        digits (ds ++ rest) (count + 1) (10 * value + n) := by
      rw [List.cons_append, digits, hn]
      exact fun c rest' heq => absurd heq hunderscore
    rw [hstep, ih (fun c hc => hds c (List.mem_cons_of_mem _ hc)), hvalue, List.length_cons]
    refine Prod.ext (by dsimp only; omega) (Prod.ext ?_ rfl)
    dsimp only
    ring

lemma exponent?_text (e : ℤ) (hrest : Stops rest) :
    exponent? ('e' :: (exponentText e ++ rest)) = some (e, rest) := by
  obtain ⟨sgn, es, htext, hes, hne, hvalue, hsign⟩ : ∃ sgn es, exponentText e = sgn :: es ∧
      AllDigits es ∧ es.length ≠ 0 ∧ digitsValue es = e.natAbs ∧
      sgn = (if e < 0 then '-' else '+') := by
    refine ⟨_, _, rfl, ?_, ?_, ?_, rfl⟩
    · split
      · exact allDigits_zero.append (allDigits_toDigits _)
      · exact allDigits_toDigits _
    · have hpos := Nat.length_toDigits_pos (b := 10) (n := e.natAbs)
      split
      · exact Nat.succ_ne_zero _
      · omega
    · have hzero : digitsValue ['0'] = 0 := by decide
      split
      · rw [← List.singleton_append, digitsValue_append allDigits_zero
          (allDigits_toDigits _), digitsValue_toDigits, hzero, zero_mul, zero_add]
      · exact digitsValue_toDigits _
  have hdigits : digits (es ++ rest) 0 0 = (es.length, e.natAbs, rest) := by
    rw [digits_append hes hrest, hvalue, zero_mul, zero_add, zero_add]
  obtain ⟨k, hk⟩ := Nat.exists_eq_succ_of_ne_zero hne
  rw [hk] at hdigits
  rw [htext, hsign]
  by_cases hneg : e < 0
  · simp only [hneg, if_true, List.cons_append, exponent?, sign, hdigits]
    rw [show -(e.natAbs : ℤ) = e by omega]
  · simp only [hneg, if_false, List.cons_append, exponent?, sign, hdigits]
    simp only [Bool.false_eq_true, if_false]
    rw [show (e.natAbs : ℤ) = e by omega]

lemma scale_eq (n : ℕ) (e : ℤ) : scale n e = n * (10 : ℚ) ^ e := by
  unfold scale
  split
  · rename_i h
    obtain ⟨k, rfl⟩ := Int.eq_ofNat_of_zero_le h
    simp
  · rename_i h
    obtain ⟨k, hk⟩ := Int.eq_ofNat_of_zero_le (by omega : 0 ≤ -e)
    obtain rfl : e = -(k : ℤ) := by omega
    simp [div_eq_mul_inv]

/-! The three parts of `parseUnsigned`. -/

def readWhole : List Char → List Char × List Char
  | '0' :: rest => (['0'], rest)
  | s => jsonDigits s

def readFraction (rest : List Char) : List Char × List Char :=
  match rest with
  | '.' :: r => if (jsonDigits r).1 = [] then ([], rest) else jsonDigits r
  | r => ([], r)

def readExponent (rest : List Char) : Option ℤ × List Char :=
  match exponent? rest with
  | some (e, r) => if rest = r then (none, rest) else (some e, r)
  | none => (none, rest)

lemma parseUnsigned_eq (s : List Char) : parseUnsigned s = (
    let whole := readWhole s
    let frac := readFraction whole.2
    let e := readExponent frac.2
    let mantissa := digitsValue (whole.1 ++ frac.1)
    if whole.1 = [] then none
    else if frac.1 = [] ∧ e.1 = none then some (mantissa, none, e.2)
    else some (mantissa, some (scale mantissa (e.1.getD 0 - frac.1.length)), e.2)) := rfl

/-- What stands between the digits before the point and the delimiter. -/
def exponentPart (e : Option ℤ) : List Char := e.elim [] fun e => 'e' :: exponentText e

def fractionPart (frac : List Char) : List Char := if frac = [] then [] else '.' :: frac

lemma readExponent_part (e : Option ℤ) (hrest : Delimited rest) :
    readExponent (exponentPart e ++ rest) = (e, rest) := by
  cases e with
  | some e =>
    have hlonger : 'e' :: (exponentText e ++ rest) ≠ rest := fun h => by
      have := congrArg List.length h
      simp at this
      omega
    show readExponent ('e' :: (exponentText e ++ rest)) = _
    rw [readExponent, exponent?_text e hrest.stops]
    exact if_neg hlonger
  | none =>
    show readExponent rest = _
    have hnone : exponent? rest = some (0, rest) := by
      unfold exponent?
      split
      · exact absurd (hrest 'e' (by simp)) (by decide)
      · exact absurd (hrest 'E' (by simp)) (by decide)
      · rfl
    rw [readExponent, hnone]
    exact if_pos rfl

lemma stops_exponentPart (e : Option ℤ) (hrest : Delimited rest) : Stops (exponentPart e ++ rest) := by
  cases e with
  | some e => exact stops_cons (by decide)
  | none => exact hrest.stops

lemma readFraction_part {frac : List Char} (hfrac : AllDigits frac) (e : Option ℤ)
    (hrest : Delimited rest) :
    readFraction (fractionPart frac ++ (exponentPart e ++ rest)) = (frac, exponentPart e ++ rest) := by
  by_cases hne : frac = []
  · rw [fractionPart, if_pos hne, List.nil_append, hne]
    unfold readFraction
    split
    · rename_i r heq
      cases e with
      | some e => simp [exponentPart] at heq
      | none =>
        have hdot : rest = '.' :: r := heq
        exact absurd (hrest '.' (by simp [hdot])) (by decide)
    · rfl
  · have hdigits := jsonDigits_append hfrac (stops_exponentPart e hrest)
    rw [fractionPart, if_neg hne]
    show (if (jsonDigits (frac ++ (exponentPart e ++ rest))).1 = [] then _
      else jsonDigits (frac ++ (exponentPart e ++ rest))) = _
    rw [hdigits]
    exact if_neg hne

lemma readWhole_append {whole : List Char} (hwhole : AllDigits whole)
    (hlead : whole = ['0'] ∨ whole.head? ≠ some '0') (hne : whole ≠ []) (hrest : Stops rest) :
    readWhole (whole ++ rest) = (whole, rest) := by
  rcases hlead with rfl | hhead
  · rfl
  · obtain ⟨c, cs, rfl⟩ := List.exists_cons_of_ne_nil hne
    have hc : c ≠ '0' := by simpa using hhead
    rw [List.cons_append, readWhole, ← List.cons_append, jsonDigits_append hwhole hrest]
    rintro r heq
    exact hc (List.cons.inj heq).1

/-- A literal with a fraction or an exponent is read to its end. -/
lemma parseUnsigned_literal {whole frac : List Char} (e : Option ℤ) (hwhole : AllDigits whole)
    (hlead : whole = ['0'] ∨ whole.head? ≠ some '0') (hne : whole ≠ []) (hfrac : AllDigits frac)
    (hfloat : ¬ (frac = [] ∧ e = none)) (hrest : Delimited rest) :
    parseUnsigned (whole ++ (fractionPart frac ++ (exponentPart e ++ rest))) =
      some (digitsValue (whole ++ frac),
        some (digitsValue (whole ++ frac) * (10 : ℚ) ^ (e.getD 0 - frac.length)), rest) := by
  have hstops : Stops (fractionPart frac ++ (exponentPart e ++ rest)) := by
    unfold fractionPart
    split
    · exact stops_exponentPart e hrest
    · exact stops_cons (by decide)
  simp only [parseUnsigned_eq, readWhole_append hwhole hlead hne hstops, readFraction_part hfrac e hrest,
    readExponent_part e hrest, hne, hfloat, if_false, scale_eq]

/-- Wherever the point stands, the literal has the value of its digits, shifted. -/
lemma parseUnsigned_placePoint (hds : AllDigits ds) (hhead : ds.head? ≠ some '0') (hne : ds ≠ [])
    (point : ℤ) (hrest : Delimited rest) : ∃ n, parseUnsigned (placePoint ds point ++ rest) =
      some (n, some (digitsValue ds * (10 : ℚ) ^ (point - ds.length)), rest) := by
  unfold placePoint
  split
  · -- an exponent
    obtain ⟨d, frac, rfl⟩ := List.exists_cons_of_ne_nil hne
    have hd : AllDigits [d] := fun c hc => hds c (by simp_all)
    have hfrac : AllDigits frac := fun c hc => hds c (by simp [hc])
    have hread := parseUnsigned_literal (some (point - 1)) hd (.inr (by simpa using hhead)) (by simp)
      hfrac (by simp) hrest
    refine ⟨digitsValue (d :: frac), ?_⟩
    have hshift : point - 1 - (frac.length : ℤ) = point - ((d :: frac).length : ℤ) := by
      rw [List.length_cons]
      push_cast
      ring
    rw [Option.getD_some, hshift] at hread
    cases frac with
    | nil => exact hread
    | cons c cs =>
      refine (congrArg parseUnsigned ?_).trans hread
      simp [fractionPart, exponentPart]
  split
  · -- zeros between the point and the digits
    rename_i hsmall
    obtain ⟨k, hk⟩ := Int.eq_ofNat_of_zero_le (by omega : 0 ≤ -point)
    have hzeros := allDigits_zeros k
    have hread := parseUnsigned_literal none allDigits_zero (.inl rfl) (by simp) (hzeros.append hds)
      (by simp [hne]) hrest
    have hvalue : digitsValue (['0'] ++ (List.replicate k '0' ++ ds)) = digitsValue ds := by
      have hzero : digitsValue ['0'] = 0 := by decide
      rw [digitsValue_append allDigits_zero (hzeros.append hds),
        digitsValue_append hzeros hds, digitsValue_zeros, hzero, zero_mul, zero_mul, zero_add, zero_add]
    refine ⟨digitsValue ds, ?_⟩
    have hshift : (0 : ℤ) - ((List.replicate k '0' ++ ds).length : ℤ) = point - ds.length := by
      rw [List.length_append, List.length_replicate]
      push_cast
      omega
    rw [hvalue, Option.getD_none, hshift] at hread
    refine (congrArg parseUnsigned ?_).trans hread
    rw [show (-point).toNat = k by omega]
    simp [fractionPart, exponentPart, hne]
  split
  · -- the point among the digits
    rename_i hlarge hsmall hamong
    obtain ⟨k, hk⟩ := Int.eq_ofNat_of_zero_le (by omega : 0 ≤ point)
    subst hk
    have hlt : k < ds.length := by omega
    have htake : AllDigits (ds.take k) := fun c hc => hds c (List.mem_of_mem_take hc)
    have hdrop : AllDigits (ds.drop k) := fun c hc => hds c (List.mem_of_mem_drop hc)
    have hdropNe : ds.drop k ≠ [] := by simpa using hlt
    have htakeHead : (ds.take k).head? ≠ some '0' := by
      rw [List.head?_take]
      split <;> simp_all
    have htakeNe : ds.take k ≠ [] := by
      rw [Ne, List.take_eq_nil_iff]
      exact not_or.mpr ⟨by omega, hne⟩
    have hread := parseUnsigned_literal none htake (.inr htakeHead) htakeNe hdrop
      (by simp [hlt]) hrest
    refine ⟨digitsValue ds, ?_⟩
    have hshift : (0 : ℤ) - ((ds.drop k).length : ℤ) = (k : ℤ) - ds.length := by
      rw [List.length_drop, Nat.cast_sub hlt.le]
      ring
    rw [List.take_append_drop, Option.getD_none, hshift] at hread
    refine (congrArg parseUnsigned ?_).trans hread
    simp [fractionPart, exponentPart, hdropNe]
  · -- zeros between the digits and the point
    rename_i hlarge hsmall hamong
    obtain ⟨k, hk⟩ := Int.eq_ofNat_of_zero_le (by omega : 0 ≤ point - ds.length)
    have hzeros := allDigits_zeros k
    have hread := parseUnsigned_literal none (hds.append hzeros)
      (.inr (by rw [List.head?_append_of_ne_nil _ hne]; exact hhead)) (by simp [hne]) allDigits_zero
      (by simp) hrest
    have hvalue : digitsValue (ds ++ List.replicate k '0' ++ ['0']) = digitsValue ds * 10 ^ (k + 1) := by
      have hzero : digitsValue ['0'] = 0 := by decide
      rw [digitsValue_append (hds.append hzeros) allDigits_zero,
        digitsValue_append hds hzeros, digitsValue_zeros, hzero, List.length_replicate]
      simp [pow_succ, mul_assoc]
    refine ⟨digitsValue (ds ++ List.replicate k '0' ++ ['0']), ?_⟩
    have hrational : (digitsValue (ds ++ List.replicate k '0' ++ ['0']) : ℚ) *
        10 ^ ((0 : ℤ) - (['0'].length : ℤ)) = digitsValue ds * (10 : ℚ) ^ (point - ds.length) := by
      rw [hvalue, hk]
      simp only [List.length_singleton, Nat.cast_one, zero_sub, zpow_neg_one, zpow_natCast]
      push_cast
      rw [pow_succ]
      field_simp
    rw [Option.getD_none, hrational] at hread
    refine (congrArg parseUnsigned ?_).trans hread
    rw [show point.toNat - ds.length = k by omega]
    simp [fractionPart, exponentPart]

/-- A positive number is read back. -/
lemma parseUnsigned_spellPositive {q : ℚ} (hq : 0 < q) (hdecimal : q.den ∣ 10 ^ q.den.log2)
    (hrest : Delimited rest) :
    ∃ n, parseUnsigned (spellPositive q ++ rest) = some (n, some q, rest) := by
  set places := q.den.log2 with hplaces
  set number := q.num.natAbs * (10 ^ places / q.den) with hnumber
  set ds := Nat.toDigits 10 number with hds
  have hnum : 0 < q.num.natAbs := Int.natAbs_pos.mpr (Rat.num_pos.mpr hq).ne'
  have hscale : 0 < 10 ^ places / q.den :=
    Nat.div_pos (Nat.le_of_dvd (by positivity) hdecimal) q.den_pos
  have hpos : 0 < number := Nat.mul_pos hnum hscale
  obtain ⟨k, hsplit, hlength⟩ := trimZeros_append ds
  have hall : AllDigits ds := allDigits_toDigits number
  have htrimmed : AllDigits (trimZeros ds) := fun c hc => hall c ((List.rdropWhile_prefix _ _).mem hc)
  have hvalue : digitsValue (trimZeros ds) * 10 ^ k = number := by
    have h := digitsValue_toDigits number
    rw [← hds, ← hsplit, digitsValue_append htrimmed (allDigits_zeros k), digitsValue_zeros,
      List.length_replicate, add_zero] at h
    exact h
  have hne : trimZeros ds ≠ [] := by
    intro hnil
    rw [hnil] at hvalue
    have hzero : digitsValue [] = 0 := rfl
    rw [hzero, zero_mul] at hvalue
    omega
  have hhead : (trimZeros ds).head? ≠ some '0' := by
    have h := head?_toDigits hpos
    rwa [← hds, ← hsplit, List.head?_append_of_ne_nil _ hne] at h
  obtain ⟨n, hread⟩ := parseUnsigned_placePoint htrimmed hhead hne (ds.length - places) hrest
  have hsame : (digitsValue (trimZeros ds) : ℚ) *
      10 ^ ((ds.length : ℤ) - places - (trimZeros ds).length) = q := by
    have hexponent : (ds.length : ℤ) - places - (trimZeros ds).length = (k : ℤ) - places := by
      rw [hlength]
      push_cast
      ring
    have hcast : (digitsValue (trimZeros ds) : ℚ) * 10 ^ k = number := by exact_mod_cast hvalue
    have hquotient : ((10 ^ places / q.den : ℕ) : ℚ) = 10 ^ places / q.den := by
      rw [Nat.cast_div hdecimal (by exact_mod_cast q.den_ne_zero)]
      push_cast
      rfl
    have hnatAbs : (q.num.natAbs : ℚ) = q.num := by
      have hint : (q.num.natAbs : ℤ) = q.num := Int.natAbs_of_nonneg (Rat.num_nonneg.mpr hq.le)
      simpa only [Int.cast_natCast] using congrArg (fun z : ℤ => (z : ℚ)) hint
    rw [hexponent, zpow_sub₀ (by norm_num), zpow_natCast, zpow_natCast, ← mul_div_assoc, hcast, hnumber]
    push_cast
    rw [hquotient, hnatAbs, mul_div_assoc, div_div_cancel_left' (by positivity), ← div_eq_mul_inv]
    exact q.num_div_den
  rw [hsame] at hread
  exact ⟨n, hread⟩

/-- The digits of a number alone are an integer. -/
lemma parseUnsigned_toDigits (n : ℕ) (hrest : Delimited rest) :
    parseUnsigned (Nat.toDigits 10 n ++ rest) = some (n, none, rest) := by
  have hlead : Nat.toDigits 10 n = ['0'] ∨ (Nat.toDigits 10 n).head? ≠ some '0' := by
    rcases Nat.eq_zero_or_pos n with rfl | hpos
    · exact .inl (Nat.toDigits_zero 10)
    · exact .inr (head?_toDigits hpos)
  have hwhole := readWhole_append (allDigits_toDigits n) hlead Nat.toDigits_ne_nil hrest.stops
  have hnone : AllDigits [] := fun _ hc => absurd hc List.not_mem_nil
  have hfrac : readFraction rest = ([], rest) := readFraction_part hnone none hrest
  have he : readExponent rest = (none, rest) := readExponent_part none hrest
  simp only [parseUnsigned_eq, hwhole, hfrac, he, Nat.toDigits_ne_nil, if_false, and_self, if_true,
    List.append_nil, digitsValue_toDigits]

/-- A literal without a sign is a number. -/
lemma parseNumber_of_unsigned {s : List Char} {n : ℕ} {q : Option ℚ}
    (h : parseUnsigned s = some (n, q, rest)) :
    parseNumber s = some (q.elim (.int n) fun q => .float (.fin q), rest) := by
  unfold parseNumber
  split
  · cases h
  · cases h
  · cases h
  · cases h
  · rw [h]
    cases q <;> rfl

lemma parseNumber_neg {s : List Char} {n : ℕ} {q : Option ℚ} (h : parseUnsigned s = some (n, q, rest)) :
    parseNumber ('-' :: s) = some (q.elim (.int (-n)) fun q => .float (.fin (-q)), rest) := by
  have hinf : ∀ s', s ≠ 'I' :: s' := by
    rintro s' rfl
    cases h
  unfold parseNumber
  split
  · simp_all
  · simp_all
  · simp_all
  · rename_i heq
    obtain rfl := (List.cons.inj heq).2
    rw [h]
    cases q <;> rfl
  · simp_all

/-- An integer is read back. -/
theorem parseNumber_spellInt (i : ℤ) (hrest : Delimited rest) :
    parseNumber (spellInt i ++ rest) = some (.int i, rest) := by
  have hread := parseUnsigned_toDigits i.natAbs hrest
  unfold spellInt
  split
  · rw [List.cons_append, parseNumber_neg hread]
    show some (Json.int (-(i.natAbs : ℤ)), rest) = _
    rw [show -(i.natAbs : ℤ) = i by omega]
  · rw [parseNumber_of_unsigned hread]
    show some (Json.int (i.natAbs : ℤ), rest) = _
    rw [show (i.natAbs : ℤ) = i by omega]

/-- A float is read back. -/
theorem parseNumber_spellFloat {x : PyFloat} (hdecimal : x.Decimal) (hrest : Delimited rest) :
    parseNumber (spellFloat x ++ rest) = some (.float x, rest) := by
  cases x with
  | nan => rfl
  | inf negative => cases negative <;> rfl
  | fin q =>
    rw [spellFloat]
    split
    · rename_i hzero
      have hread := parseUnsigned_literal none allDigits_zero (.inl rfl) (by simp) allDigits_zero
        (by simp) hrest
      have hvalue : digitsValue (['0'] ++ ['0']) = 0 := by decide
      rw [hvalue, Nat.cast_zero, zero_mul] at hread
      have hnumber := parseNumber_of_unsigned hread
      rw [hzero]
      exact hnumber
    split
    · rename_i hzero hneg
      have hden : (-q).den ∣ 10 ^ (-q).den.log2 := by rwa [Rat.neg_den]
      obtain ⟨n, hread⟩ := parseUnsigned_spellPositive (neg_pos.mpr hneg) hden hrest
      rw [List.cons_append, parseNumber_neg hread]
      show some (Json.float (.fin (- -q)), rest) = _
      rw [neg_neg]
    · rename_i hzero hneg
      have hpos : 0 < q := lt_of_le_of_ne (not_lt.mp hneg) (Ne.symm hzero)
      obtain ⟨n, hread⟩ := parseUnsigned_spellPositive hpos hdecimal hrest
      exact parseNumber_of_unsigned hread

end Reading

end PaperTrade.Runtime
