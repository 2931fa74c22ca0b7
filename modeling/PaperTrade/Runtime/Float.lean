import Mathlib.Data.Rat.Floor
import Mathlib.Tactic

/-!
# Python floats in exact arithmetic

`PyFloat` keeps what the IEEE special values do and drops rounding: a float is NaN, an
infinity or an exact rational. Comparisons with NaN are false, `NaN` is truthy, `min` and
`max` return their first argument unless the second compares strictly better, and `isfinite`
tells the rationals apart from the rest, all as in Python.

The sign of zero is dropped. Division by zero, which raises in Python, is `nan` here; a model
that divides has to guard the divisor as its source does.
-/

namespace PaperTrade.Runtime

/-- A Python float: NaN, an infinity, or a finite value. -/
inductive PyFloat
  | nan
  | inf (negative : Bool)
  | fin (q : ℚ)
deriving DecidableEq, Repr

namespace PyFloat

instance : Inhabited PyFloat := ⟨fin 0⟩
instance : Coe ℚ PyFloat := ⟨fin⟩
instance : OfNat PyFloat n := ⟨fin (OfNat.ofNat n)⟩

def neg : PyFloat → PyFloat
  | nan => nan
  | inf s => inf (!s)
  | fin q => fin (-q)

def add : PyFloat → PyFloat → PyFloat
  | nan, _ => nan
  | _, nan => nan
  | inf s, inf t => if s = t then inf s else nan
  | inf s, fin _ => inf s
  | fin _, inf t => inf t
  | fin p, fin q => fin (p + q)

def mul : PyFloat → PyFloat → PyFloat
  | nan, _ => nan
  | _, nan => nan
  | inf s, inf t => inf (s ^^ t)
  | inf s, fin q => if q = 0 then nan else inf (s ^^ decide (q < 0))
  | fin p, inf t => if p = 0 then nan else inf (t ^^ decide (p < 0))
  | fin p, fin q => fin (p * q)

def div : PyFloat → PyFloat → PyFloat
  | nan, _ => nan
  | _, nan => nan
  | inf _, inf _ => nan
  | inf s, fin q => if q = 0 then nan else inf (s ^^ decide (q < 0))
  | fin _, inf _ => fin 0
  | fin p, fin q => if q = 0 then nan else fin (p / q)

instance : Neg PyFloat := ⟨neg⟩
instance : Add PyFloat := ⟨add⟩
instance : Sub PyFloat := ⟨fun x y => add x (neg y)⟩
instance : Mul PyFloat := ⟨mul⟩
instance : Div PyFloat := ⟨div⟩

/-- `x < y`; false when either side is NaN. -/
def blt : PyFloat → PyFloat → Bool
  | nan, _ => false
  | _, nan => false
  | inf s, inf t => s && !t
  | inf s, fin _ => s
  | fin _, inf t => !t
  | fin p, fin q => decide (p < q)

/-- `x <= y`; false when either side is NaN. -/
def ble : PyFloat → PyFloat → Bool
  | nan, _ => false
  | _, nan => false
  | inf s, inf t => s || !t
  | inf s, fin _ => s
  | fin _, inf t => !t
  | fin p, fin q => decide (p ≤ q)

instance : LT PyFloat := ⟨fun x y => blt x y = true⟩
instance : LE PyFloat := ⟨fun x y => ble x y = true⟩
instance : DecidableLT PyFloat := fun x y => inferInstanceAs (Decidable (blt x y = true))
instance : DecidableLE PyFloat := fun x y => inferInstanceAs (Decidable (ble x y = true))

/-- `bool(x)`: every float but zero is truthy, NaN included. -/
def truthy : PyFloat → Bool
  | fin q => q ≠ 0
  | _ => true

/-- `math.isfinite(x)`. -/
def isFinite : PyFloat → Bool
  | fin _ => true
  | _ => false

/-- `min(x, y)`. -/
def min (x y : PyFloat) : PyFloat := if y < x then y else x

/-- `max(x, y)`. -/
def max (x y : PyFloat) : PyFloat := if x < y then y else x

/-- `abs(x)`. -/
def abs : PyFloat → PyFloat
  | nan => nan
  | inf _ => inf false
  | fin q => fin |q|

/-- `int(x)`: truncation towards zero; `none` where Python raises (NaN and the infinities). -/
def toInt? : PyFloat → Option ℤ
  | fin q => some (q.num.tdiv q.den)
  | _ => none

/-! ## Finite values -/

@[simp] theorem ofNat_eq (n : ℕ) [n.AtLeastTwo] : (OfNat.ofNat n : PyFloat) = fin (OfNat.ofNat n) :=
  rfl
@[simp] theorem zero_eq : (0 : PyFloat) = fin 0 := rfl
@[simp] theorem one_eq : (1 : PyFloat) = fin 1 := rfl

@[simp] theorem neg_fin (p : ℚ) : -fin p = fin (-p) := rfl
@[simp] theorem add_fin (p q : ℚ) : fin p + fin q = fin (p + q) := rfl
@[simp] theorem mul_fin (p q : ℚ) : fin p * fin q = fin (p * q) := rfl

@[simp] theorem sub_fin (p q : ℚ) : fin p - fin q = fin (p - q) := by
  rw [sub_eq_add_neg]; rfl

theorem div_fin (p : ℚ) {q : ℚ} (h : q ≠ 0) : fin p / fin q = fin (p / q) := if_neg h

@[simp] theorem fin_lt_fin (p q : ℚ) : fin p < fin q ↔ p < q := decide_eq_true_iff
@[simp] theorem fin_le_fin (p q : ℚ) : fin p ≤ fin q ↔ p ≤ q := decide_eq_true_iff

@[simp] theorem truthy_fin (q : ℚ) : (fin q).truthy = decide (q ≠ 0) := rfl
@[simp] theorem isFinite_fin (q : ℚ) : (fin q).isFinite = true := rfl
@[simp] theorem abs_fin (q : ℚ) : (fin q).abs = fin |q| := rfl

theorem isFinite_iff (x : PyFloat) : x.isFinite = true ↔ ∃ q, x = fin q := by
  cases x <;> simp [isFinite]

@[simp] theorem min_fin (p q : ℚ) : (fin p).min (fin q) = fin (Min.min p q) := by
  simp only [min, fin_lt_fin, min_def]
  split_ifs with h₁ h₂ h₂
  · exact absurd h₁ (not_lt.mpr h₂)
  · rfl
  · rfl
  · exact absurd (not_le.mp h₂) h₁

@[simp] theorem max_fin (p q : ℚ) : (fin p).max (fin q) = fin (Max.max p q) := by
  simp only [max, fin_lt_fin, max_def]
  split_ifs with h₁ h₂ h₂
  · rfl
  · exact absurd h₁.le h₂
  · exact congrArg fin (le_antisymm h₂ (not_lt.mp h₁))
  · rfl

/-! ## Sums -/

theorem add_comm (x y : PyFloat) : x + y = y + x := by
  change add x y = add y x
  rcases x with _ | s | p <;> rcases y with _ | t | q <;> simp only [add]
  · by_cases h : s = t
    · rw [if_pos h, if_pos h.symm, h]
    · rw [if_neg h, if_neg fun h' => h h'.symm]
  · rw [Rat.add_comm]

theorem add_assoc (x y z : PyFloat) : x + y + z = x + (y + z) := by
  change add (add x y) z = add x (add y z)
  rcases x with _ | (_ | _) | p <;> rcases y with _ | (_ | _) | q <;> rcases z with _ | (_ | _) | r <;>
    simp [add, Rat.add_assoc]

theorem zero_add (x : PyFloat) : 0 + x = x := by
  cases x with
  | fin q => exact congrArg fin (Rat.zero_add q)
  | _ => rfl

theorem mul_one (x : PyFloat) : x * 1 = x := by
  change mul x (fin 1) = x
  rcases x with _ | s | p
  · rfl
  · cases s <;> rfl
  · exact congrArg fin (Rat.mul_one p)

/-- The order of the summands does not matter. -/
theorem foldl_add_perm {l m : List PyFloat} (h : l.Perm m) (x : PyFloat) :
    l.foldl (· + ·) x = m.foldl (· + ·) x := by
  refine h.foldl_eq' (fun y _ z _ acc => ?_) x
  rw [add_assoc, add_comm y z, ← add_assoc]

/-! ## NaN -/

@[simp] theorem not_nan_lt (x : PyFloat) : ¬ nan < x := by
  change ¬ blt nan x = true; simp [blt]

@[simp] theorem not_lt_nan (x : PyFloat) : ¬ x < nan := by
  change ¬ blt x nan = true; cases x <;> simp [blt]

@[simp] theorem not_nan_le (x : PyFloat) : ¬ nan ≤ x := by
  change ¬ ble nan x = true; simp [ble]

@[simp] theorem not_le_nan (x : PyFloat) : ¬ x ≤ nan := by
  change ¬ ble x nan = true; cases x <;> simp [ble]

/-! ## The order of the numbers -/

theorem le_self {x : PyFloat} (hx : x ≠ nan) : x ≤ x := by
  cases x with
  | nan => exact absurd rfl hx
  | inf s => cases s <;> rfl
  | fin q => exact (fin_le_fin q q).mpr le_rfl

theorem le_trans {x y z : PyFloat} (hxy : x ≤ y) (hyz : y ≤ z) : x ≤ z := by
  change ble x z = true
  change ble x y = true at hxy
  change ble y z = true at hyz
  rcases x with _ | (_ | _) | p <;> rcases y with _ | (_ | _) | q <;> rcases z with _ | (_ | _) | r <;>
    simp_all [ble]
  exact hxy.trans hyz

/-- Between two numbers one comparison decides. -/
theorem le_of_not_lt {x y : PyFloat} (hx : x ≠ nan) (hy : y ≠ nan) (h : ¬ x < y) : y ≤ x := by
  change ble y x = true
  change ¬ blt x y = true at h
  rcases x with _ | (_ | _) | p <;> rcases y with _ | (_ | _) | q <;> simp_all [ble, blt]

theorem max_eq_right {x y : PyFloat} (hx : x ≠ nan) (hy : y ≠ nan) (h : ¬ y < x) : x.max y = y := by
  unfold max
  split
  · rfl
  · rename_i hxy
    have hle : x ≤ y := le_of_not_lt hy hx h
    have hge : y ≤ x := le_of_not_lt hx hy hxy
    change ble x y = true at hle
    change ble y x = true at hge
    rcases x with _ | (_ | _) | p <;> rcases y with _ | (_ | _) | q <;> simp_all [ble]
    exact le_antisymm (by assumption) (by assumption)

/-- The numbers in a linear order, between the infinities; NaN is not one of them. -/
def toExtended : PyFloat → WithBot (WithTop ℚ)
  | nan => ⊥
  | inf true => ⊥
  | inf false => (⊤ : WithTop ℚ)
  | fin q => (q : WithTop ℚ)

theorem toExtended_lt {x y : PyFloat} (hx : x ≠ nan) (hy : y ≠ nan) :
    x < y ↔ x.toExtended < y.toExtended := by
  change blt x y = true ↔ _
  rcases x with _ | (_ | _) | p <;> rcases y with _ | (_ | _) | q <;>
    simp_all [blt, toExtended, ← WithBot.coe_top]

theorem toExtended_inj {x y : PyFloat} (hx : x ≠ nan) (hy : y ≠ nan)
    (h : x.toExtended = y.toExtended) : x = y := by
  rcases x with _ | (_ | _) | p <;> rcases y with _ | (_ | _) | q <;> simp_all [toExtended]

theorem max_ne_nan {x y : PyFloat} (hx : x ≠ nan) (hy : y ≠ nan) : x.max y ≠ nan := by
  unfold max
  split <;> assumption

theorem min_ne_nan {x y : PyFloat} (hx : x ≠ nan) (hy : y ≠ nan) : x.min y ≠ nan := by
  unfold min
  split <;> assumption

theorem toExtended_max {x y : PyFloat} (hx : x ≠ nan) (hy : y ≠ nan) :
    (x.max y).toExtended = Max.max x.toExtended y.toExtended := by
  unfold max
  split
  · rename_i h
    exact (sup_eq_right.mpr ((toExtended_lt hx hy).mp h).le).symm
  · rename_i h
    rw [toExtended_lt hx hy, not_lt] at h
    exact (max_eq_left h).symm

theorem toExtended_min {x y : PyFloat} (hx : x ≠ nan) (hy : y ≠ nan) :
    (x.min y).toExtended = Min.min x.toExtended y.toExtended := by
  unfold min
  split
  · rename_i h
    exact (min_eq_right ((toExtended_lt hy hx).mp h).le).symm
  · rename_i h
    rw [toExtended_lt hy hx, not_lt] at h
    exact (min_eq_left h).symm

theorem max_max {x y z : PyFloat} (hx : x ≠ nan) (hy : y ≠ nan) (hz : z ≠ nan) :
    (x.max y).max z = x.max (y.max z) := by
  have hxy := max_ne_nan hx hy
  have hyz := max_ne_nan hy hz
  apply toExtended_inj (max_ne_nan hxy hz) (max_ne_nan hx hyz)
  rw [toExtended_max hxy hz, toExtended_max hx hy, toExtended_max hx hyz, toExtended_max hy hz,
    max_assoc]

theorem min_min {x y z : PyFloat} (hx : x ≠ nan) (hy : y ≠ nan) (hz : z ≠ nan) :
    (x.min y).min z = x.min (y.min z) := by
  have hxy := min_ne_nan hx hy
  have hyz := min_ne_nan hy hz
  apply toExtended_inj (min_ne_nan hxy hz) (min_ne_nan hx hyz)
  rw [toExtended_min hxy hz, toExtended_min hx hy, toExtended_min hx hyz, toExtended_min hy hz,
    min_assoc]

end PyFloat

end PaperTrade.Runtime
