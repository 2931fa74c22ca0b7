import Mathlib.Order.Interval.Finset.Defs
import Mathlib.Data.Int.Interval
import Mathlib.Tactic

/-!
# Counting the ticks of an interval

`ticks p a b` is how many integers of `[a, b)` satisfy `p`: the length of what `p` leaves of the
interval, when `p` only changes at integers. It is additive over a split point, grows with its end, and
is the whole length or nothing where `p` does not change.

`ticks_shift_iff` says when a shift of the interval never changes the count: when the two ends that are
lost and won look the same.
-/

namespace PaperTrade.Runtime

open Finset

variable (p : ℤ → Prop) [DecidablePred p]

/-- How many integers of `[a, b)` satisfy `p`. -/
noncomputable def ticks (a b : ℤ) : ℕ := #{t ∈ Ico a b | p t}

variable {p} {a b c : ℤ}

lemma ticks_eq_zero (h : ∀ t, a ≤ t → t < b → ¬ p t) : ticks p a b = 0 := by
  rw [ticks, card_eq_zero, filter_eq_empty_iff]
  intro t ht
  rw [mem_Ico] at ht
  exact h t ht.1 ht.2

lemma ticks_of_le (h : b ≤ a) : ticks p a b = 0 :=
  ticks_eq_zero fun t hat htb => by omega

/-- Where `p` holds throughout, the count is the length. -/
lemma ticks_of_forall (hab : a ≤ b) (h : ∀ t, a ≤ t → t < b → p t) : (ticks p a b : ℤ) = b - a := by
  have hall : {t ∈ Ico a b | p t} = Ico a b := by
    rw [filter_eq_self]
    intro t ht
    rw [mem_Ico] at ht
    exact h t ht.1 ht.2
  rw [ticks, hall, Int.card_Ico, Int.toNat_of_nonneg (by omega)]

theorem ticks_add (hab : a ≤ b) (hbc : b ≤ c) : ticks p a b + ticks p b c = ticks p a c := by
  have hdisjoint : Disjoint {t ∈ Ico a b | p t} {t ∈ Ico b c | p t} :=
    disjoint_filter_filter (Ico_disjoint_Ico_consecutive a b c)
  rw [ticks, ticks, ticks, ← card_union_of_disjoint hdisjoint, ← filter_union,
    Ico_union_Ico_eq_Ico hab hbc]

theorem ticks_mono (hbc : b ≤ c) : ticks p a b ≤ ticks p a c :=
  card_le_card (filter_subset_filter _ (Ico_subset_Ico_right hbc))

/-- What has no tick may be cut off in front. -/
lemma ticks_skip (hab : a ≤ b) (h : ∀ t, a ≤ t → t < b → ¬ p t) : ticks p b c = ticks p a c := by
  by_cases hbc : b ≤ c
  · rw [← ticks_add hab hbc, ticks_eq_zero h, zero_add]
  · have hnone : ticks p a c = 0 := ticks_eq_zero fun t hat htc => h t hat (by omega)
    rw [ticks_of_le (by omega), hnone]

/-- One tick. -/
lemma ticks_succ (a : ℤ) : ticks p a (a + 1) = if p a then 1 else 0 := by
  split
  · rename_i ha
    have hone : (ticks p a (a + 1) : ℤ) = a + 1 - a :=
      ticks_of_forall (by omega) fun t hat hta => by
        have heq : t = a := by omega
        rwa [heq]
    omega
  · rename_i ha
    refine ticks_eq_zero fun t hat hta => ?_
    have heq : t = a := by omega
    rwa [heq]

/-- A shift by one loses the tick at the start and wins the one at the end. -/
lemma ticks_shift (hab : a ≤ b) :
    ticks p (a + 1) (b + 1) + (if p a then 1 else 0) = ticks p a b + if p b then 1 else 0 := by
  have hleft : ticks p a (a + 1) + ticks p (a + 1) (b + 1) = ticks p a (b + 1) :=
    ticks_add (by omega) (by omega)
  have hright : ticks p a b + ticks p b (b + 1) = ticks p a (b + 1) := ticks_add hab (by omega)
  rw [ticks_succ] at hleft hright
  omega

lemma ticks_shift_iff (hab : a ≤ b) : ticks p (a + 1) (b + 1) = ticks p a b ↔ (p a ↔ p b) := by
  have hshift := ticks_shift (p := p) hab
  by_cases ha : p a <;> by_cases hb : p b <;> simp only [ha, hb, if_true, if_false] at hshift ⊢ <;>
    simp only [iff_true, iff_false, not_true] <;> omega

/-- A function on integers is constant on an interval if no step of it changes its value. -/
theorem constant_on_iff {α : Type*} {f : ℤ → α} {lo hi : ℤ} :
    (∀ t u, lo ≤ t → t < hi → lo ≤ u → u < hi → f t = f u) ↔
      ∀ t, lo ≤ t → t + 1 < hi → f (t + 1) = f t := by
  constructor
  · intro h t hlo hhi
    exact h (t + 1) t (by omega) hhi hlo (by omega)
  · intro h
    have hfirst : ∀ n : ℕ, lo + n < hi → f (lo + n) = f lo := by
      intro n
      induction n with
      | zero => intro _; rw [Nat.cast_zero, Int.add_zero]
      | succ n ih =>
        intro hn
        have hstep := h (lo + n) (by omega) (by push_cast at hn; omega)
        rw [← ih (by push_cast at hn; omega), ← hstep]
        push_cast
        rw [Int.add_assoc]
    have hall : ∀ t, lo ≤ t → t < hi → f t = f lo := by
      intro t hlo hhi
      have ht : t = lo + (t - lo).toNat := by omega
      rw [ht]
      exact hfirst _ (by omega)
    intro t u ht ht' hu hu'
    rw [hall t ht ht', hall u hu hu']

end PaperTrade.Runtime
