import Mathlib.Tactic

/-!
# The spelling of integers

`str(n)` is injective, and no separator occurs in it, so a text that starts with an integer and a
bar can be taken apart again. With the length in front of each part a list of strings has an
injective spelling (`frame`).
-/

namespace PaperTrade.Runtime

lemma repr_nat_injective {m n : ℕ} (h : Nat.repr m = Nat.repr n) : m = n := by
  have hdigits : Nat.toDigits 10 m = Nat.toDigits 10 n := String.ofList_injective h
  rw [← Nat.ofDigitChars_toDigits (b := 10) (n := m) (by decide) (by decide), hdigits,
    Nat.ofDigitChars_toDigits (by decide) (by decide)]

lemma isDigit_of_mem_repr {n : ℕ} {c : Char} (h : c ∈ (Nat.repr n).toList) : c.isDigit = true :=
  Nat.isDigit_of_mem_toDigits (b := 10) (n := n) (by decide) (by decide)
    (by simpa [Nat.repr] using h)

lemma toString_negSucc (n : ℕ) : toString (Int.negSucc n) = "-" ++ Nat.repr (n + 1) := rfl

lemma toString_ofNat (n : ℕ) : toString (Int.ofNat n) = Nat.repr n := rfl

theorem toString_int_injective : Function.Injective (toString : ℤ → String) := by
  -- a minus sign is no digit
  have hsign : ∀ m n : ℕ, Nat.repr m ≠ "-" ++ Nat.repr n := by
    intro m n h
    have hminus : '-' ∈ (Nat.repr m).toList := by
      rw [h, String.toList_append]
      exact List.mem_append_left _ (by decide)
    exact absurd (isDigit_of_mem_repr hminus) (by decide)
  intro a b h
  cases a with
  | ofNat m =>
    cases b with
    | ofNat n => rw [repr_nat_injective h]
    | negSucc n => exact absurd h (hsign m (n + 1))
  | negSucc m =>
    cases b with
    | ofNat n => exact absurd h.symm (hsign n (m + 1))
    | negSucc n =>
      have hrepr : Nat.repr (m + 1) = Nat.repr (n + 1) := String.append_right_inj _ |>.mp h
      rw [Nat.succ.inj (repr_nat_injective hrepr)]

lemma bar_not_mem_toString (i : ℤ) : '|' ∉ (toString i).toList := by
  have hnat : ∀ n : ℕ, '|' ∉ (Nat.repr n).toList := fun n h =>
    absurd (isDigit_of_mem_repr h) (by decide)
  cases i with
  | ofNat n => exact hnat n
  | negSucc n =>
    rw [toString_negSucc, String.toList_append, List.mem_append]
    rintro (h | h)
    · exact absurd h (by decide)
    · exact hnat _ h

/-- An integer, a bar and the rest: the integer can be read off. -/
theorem int_of_bar {i j : ℤ} {s t : String}
    (h : toString i ++ "|" ++ s = toString j ++ "|" ++ t) : i = j := by
  have hchars : (toString i).toList ++ '|' :: s.toList = (toString j).toList ++ '|' :: t.toList := by
    simpa using congrArg String.toList h
  have htake : ∀ (k : ℤ) (u : List Char),
      ((toString k).toList ++ '|' :: u).takeWhile (· ≠ '|') = (toString k).toList := by
    intro k u
    rw [List.takeWhile_append_of_pos]
    · simp
    · intro c hc
      simpa using fun heq : c = '|' => bar_not_mem_toString k (heq ▸ hc)
  have hi := htake i s.toList
  rw [hchars, htake j] at hi
  exact toString_int_injective (String.toList_injective hi.symm)

/-! ## Lists of strings -/

/-- The parts one after the other, each with its length and a bar in front. -/
def frame : List String → String
  | [] => ""
  | s :: rest => toString (s.length : ℤ) ++ "|" ++ (s ++ frame rest)

lemma frame_cons_ne (s : String) (rest : List String) : frame (s :: rest) ≠ "" := by
  intro h
  have hlength := congrArg (fun t : String => '|' ∈ t.toList) h
  simp [frame] at hlength

theorem frame_injective : Function.Injective frame := by
  intro l l' h
  induction l generalizing l' with
  | nil =>
    cases l' with
    | nil => rfl
    | cons s' rest' => exact absurd h.symm (frame_cons_ne s' rest')
  | cons s rest ih =>
    cases l' with
    | nil => exact absurd h (frame_cons_ne s rest)
    | cons s' rest' =>
      have hlength : (s.length : ℤ) = s'.length := int_of_bar h
      rw [frame, frame, hlength, String.append_right_inj] at h
      have hchars : s.toList ++ (frame rest).toList = s'.toList ++ (frame rest').toList := by
        simpa using congrArg String.toList h
      have hlist : s.toList.length = s'.toList.length := by
        rw [String.length_toList, String.length_toList]
        exact_mod_cast hlength
      obtain ⟨hs, hrest⟩ := List.append_inj hchars hlist
      rw [String.toList_injective hs, ih (String.toList_injective hrest)]

end PaperTrade.Runtime
