import PaperTrade.Runtime.Float

/-!
# Negated floats

Negation reverses the order of the floats and exchanges `min` and `max`, NaN and the infinities included.
-/

namespace PaperTrade.Runtime.PyFloat

lemma le_of_lt {x y : PyFloat} (h : x < y) : x ≤ y := by
  change blt x y = true at h
  change ble x y = true
  rcases x with _ | (_ | _) | p <;> rcases y with _ | (_ | _) | q <;> simp_all [blt, ble]
  exact h.le

@[simp] lemma neg_neg (x : PyFloat) : - -x = x := by
  cases x with
  | nan => rfl
  | inf s => exact congrArg inf (Bool.not_not s)
  | fin q => exact congrArg fin (by ring)

lemma neg_lt_neg (x y : PyFloat) : -x < -y ↔ y < x := by
  change blt (neg x) (neg y) = true ↔ blt y x = true
  rcases x with _ | (_ | _) | p <;> rcases y with _ | (_ | _) | q <;> simp [blt, neg]

lemma neg_le_neg (x y : PyFloat) : -x ≤ -y ↔ y ≤ x := by
  change ble (neg x) (neg y) = true ↔ ble y x = true
  rcases x with _ | (_ | _) | p <;> rcases y with _ | (_ | _) | q <;> simp [ble, neg]

lemma neg_max (x y : PyFloat) : -(x.max y) = (-x).min (-y) := by
  simp only [max, min, neg_lt_neg]
  exact apply_ite _ _ _ _

lemma max_neg (x y : PyFloat) : (-x).max (-y) = -(x.min y) := by
  rw [← neg_neg ((-x).max (-y)), neg_max, neg_neg, neg_neg]

lemma neg_sub_neg (x y : PyFloat) : -x - -y = y - x := by
  change add (-x) (- -y) = add y (-x)
  rw [neg_neg]
  exact add_comm (-x) y

lemma neg_sub (x y : PyFloat) : -(x - y) = -x + y := by
  change neg (add x (neg y)) = add (neg x) y
  rcases x with _ | (_ | _) | p <;> rcases y with _ | (_ | _) | q <;> simp [add, neg]
  ring

end PaperTrade.Runtime.PyFloat
