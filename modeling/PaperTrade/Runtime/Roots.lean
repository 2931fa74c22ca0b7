import Mathlib.Data.Nat.NthRoot.Defs
import Mathlib.Analysis.SpecialFunctions.Pow.NthRootLemmas
import PaperTrade.Runtime.Float

/-!
# Roots and powers

`math.sqrt` and `**` on floats. The square root and the fractional powers of a rational are cut off
after 52 binary places of the root of a numerator, so the root of a positive number stays positive.
-/

namespace PaperTrade.Runtime

/-- The `n`-th root of `q ≥ 0`, cut off. -/
def ratRoot (n : ℕ) (q : ℚ) : ℚ :=
  (Nat.nthRoot n (q.num.toNat * q.den ^ (n - 1) * (2 ^ 52) ^ n) : ℚ) / (q.den * 2 ^ 52)

lemma ratRoot_pos {n : ℕ} (hn : n ≠ 0) {q : ℚ} (hq : 0 < q) : 0 < ratRoot n q := by
  have hnum : 0 < q.num.toNat := by
    have := Rat.num_pos.mpr hq
    omega
  have hden : 0 < q.den := q.den_pos
  have hone : 1 ^ n ≤ q.num.toNat * q.den ^ (n - 1) * (2 ^ 52) ^ n := by
    rw [one_pow]
    exact Nat.succ_le_of_lt (by positivity)
  have hroot : 1 ≤ Nat.nthRoot n (q.num.toNat * q.den ^ (n - 1) * (2 ^ 52) ^ n) :=
    (Nat.le_nthRoot_iff hn).mpr hone
  have hroot' : (0 : ℚ) < Nat.nthRoot n (q.num.toNat * q.den ^ (n - 1) * (2 ^ 52) ^ n) := by
    exact_mod_cast hroot
  have hden' : (0 : ℚ) < q.den := by exact_mod_cast hden
  unfold ratRoot
  positivity

namespace PyFloat

/-- `math.sqrt(x)`; of a negative number, where Python raises, it is `nan`. -/
def sqrt : PyFloat → PyFloat
  | fin q => if q < 0 then nan else fin (ratRoot 2 q)
  | inf false => inf false
  | _ => nan

/-- `x ** p` for `x ≥ 0`. -/
def pow : PyFloat → PyFloat → PyFloat
  | fin x, fin p =>
    if p = 0 then fin 1
    else if x = 0 then (if p < 0 then inf false else fin 0)
    else fin (ratRoot p.den (x ^ p.num))
  | nan, fin p => if p = 0 then fin 1 else nan
  | inf _, fin p => if p = 0 then fin 1 else if p < 0 then fin 0 else inf false
  | fin x, inf s => if x = 1 then fin 1 else if (decide (x < 1) ^^ s) then fin 0 else inf false
  | inf _, inf s => if s then fin 0 else inf false
  | _, _ => nan

/-- A positive number to a number is a positive number. -/
lemma pow_pos_fin {x : ℚ} (hx : 0 < x) (p : ℚ) : ∃ y : ℚ, 0 < y ∧ pow (fin x) (fin p) = fin y := by
  unfold pow
  dsimp only
  split
  · exact ⟨1, one_pos, rfl⟩
  · rw [if_neg hx.ne']
    exact ⟨_, ratRoot_pos p.den_ne_zero (zpow_pos hx _), rfl⟩

end PyFloat

end PaperTrade.Runtime
