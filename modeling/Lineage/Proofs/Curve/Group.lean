import Lineage.Proofs.Curve.Primes
import Mathlib.AlgebraicGeometry.EllipticCurve.Affine.Point
import Mathlib.Tactic.LinearCombination

/-!
# Jacobian coordinates and the group of the curve

The points of the curve with coordinates in the field, and one neutral element, form a group.
Jacobian coordinates stand for the elements of this group, and the computations with them stand for
its operations: for the double and for the sum, the special cases included.
-/
namespace Lineage.Curve

/-- The field of coordinates. -/
abbrev Coordinate : Type := ZMod fieldPrime

theorem mul_lt (a b : Nat) : mul a b < fieldPrime := Nat.mod_lt _ (by decide)

theorem sub_lt (a b : Nat) : sub a b < fieldPrime := Nat.mod_lt _ (by decide)

@[simp] theorem cast_mul (a b : Nat) : (mul a b : Coordinate) = a * b := by
  rw [mul, ZMod.natCast_mod, Nat.cast_mul]

@[simp] theorem cast_add (a b : Nat) : (add a b : Coordinate) = a + b := by
  rw [add, ZMod.natCast_mod, Nat.cast_add]

theorem cast_sub (a : Nat) {b : Nat} (hb : b < fieldPrime) : (sub a b : Coordinate) = a - b := by
  rw [sub, ZMod.natCast_mod, Nat.cast_add, Nat.cast_sub hb.le, ZMod.natCast_self, zero_sub,
    sub_eq_add_neg]

@[simp] theorem cast_sub_mul (a b c : Nat) :
    (sub a (mul b c) : Coordinate) = a - (b : Coordinate) * c := by
  rw [cast_sub a (mul_lt b c), cast_mul]

@[simp] theorem cast_sub_sub (a b c : Nat) :
    (sub a (sub b c) : Coordinate) = a - (sub b c : Coordinate) := cast_sub a (sub_lt b c)

theorem cast_eq_zero {a : Nat} (ha : a < fieldPrime) : (a : Coordinate) = 0 ↔ a = 0 := by
  rw [ZMod.natCast_eq_zero_iff]
  exact ⟨fun dvd => Nat.eq_zero_of_dvd_of_lt dvd ha, fun h => h ▸ dvd_zero _⟩

/-- The curve y² = x³ - 3x + b. -/
def curve : WeierstrassCurve.Affine Coordinate := ⟨0, 0, 0, -3, constantTerm⟩

theorem equation_iff (x y : Coordinate) :
    curve.Equation x y ↔ y ^ 2 = x ^ 3 - 3 * x + constantTerm := by
  rw [WeierstrassCurve.Affine.equation_iff]
  simp only [curve]
  constructor <;> intro h <;> linear_combination h

/-- The curve has a tangent everywhere. -/
theorem nonsingular_iff {x y : Coordinate} : curve.Nonsingular x y ↔ curve.Equation x y := by
  have discriminant : curve.Δ = ((1728 - 432 * (constantTerm : Int) ^ 2 : Int) : Coordinate) := by
    simp only [WeierstrassCurve.Δ, WeierstrassCurve.b₂, WeierstrassCurve.b₄, WeierstrassCurve.b₆,
      WeierstrassCurve.b₈, curve]
    push_cast
    ring
  refine (WeierstrassCurve.Affine.equation_iff_nonsingular_of_Δ_ne_zero ?_).symm
  rw [discriminant, Ne, ZMod.intCast_zmod_eq_zero_iff_dvd]
  decide +kernel

@[simp] theorem negY_eq (x y : Coordinate) : curve.negY x y = -y := by
  simp [WeierstrassCurve.Affine.negY, curve]

theorem addX_eq (x₁ x₂ ℓ : Coordinate) : curve.addX x₁ x₂ ℓ = ℓ ^ 2 - x₁ - x₂ := by
  simp [WeierstrassCurve.Affine.addX, curve]

theorem addY_eq (x₁ x₂ y₁ ℓ : Coordinate) :
    curve.addY x₁ x₂ y₁ ℓ = ℓ * (x₁ - (ℓ ^ 2 - x₁ - x₂)) - y₁ := by
  rw [WeierstrassCurve.Affine.addY, negY_eq, WeierstrassCurve.Affine.negAddY, addX_eq]
  ring

theorem two_mul_ne_zero {x y : Coordinate} (hy : y ≠ curve.negY x y) : 2 * y ≠ 0 := by
  rw [negY_eq] at hy
  exact fun zero => hy (by linear_combination zero)

/-- Where the tangent is not upright, its slope. -/
theorem slope_self {x y : Coordinate} (hy : y ≠ curve.negY x y) :
    curve.slope x x y y * (2 * y) = 3 * (x ^ 2 - 1) := by
  have ne := two_mul_ne_zero hy
  have height : y - curve.negY x y = 2 * y := by
    rw [negY_eq]
    ring
  rw [WeierstrassCurve.Affine.slope_of_Y_ne rfl hy, height, div_mul_cancel₀ _ ne]
  simp only [curve]
  ring

/-- The slope of the line through two points that are not above each other. -/
theorem slope_of_ne {x₁ x₂ y₁ y₂ : Coordinate} (hx : x₁ ≠ x₂) :
    curve.slope x₁ x₂ y₁ y₂ * (x₂ - x₁) = y₂ - y₁ := by
  have ne : x₁ - x₂ ≠ 0 := sub_ne_zero.2 hx
  have slope : curve.slope x₁ x₂ y₁ y₂ * (x₁ - x₂) = y₁ - y₂ := by
    rw [WeierstrassCurve.Affine.slope_of_X_ne hx, div_mul_cancel₀ _ ne]
  linear_combination -slope

namespace Jacobian

variable {p q : Jacobian} {x x₁ x₂ y y₁ y₂ ℓ : Coordinate}

/-- Jacobian coordinates of the point with affine coordinates x and y. -/
structure Spells (p : Jacobian) (x y : Coordinate) : Prop where
  lt : p.z < fieldPrime
  ne_zero : (p.z : Coordinate) ≠ 0
  x_eq : (p.x : Coordinate) = x * (p.z : Coordinate) ^ 2
  y_eq : (p.y : Coordinate) = y * (p.z : Coordinate) ^ 3

/-- Jacobian coordinates stand for an element of the group of the curve. -/
inductive Stands (p : Jacobian) : curve.Point → Prop where
  | neutral (hz : p.z = 0) : Stands p 0
  | affine {x y : Coordinate} (h : curve.Nonsingular x y) (spells : p.Spells x y) :
      Stands p (.some x y h)

theorem stands_neutral : neutral.Stands 0 := .neutral rfl

theorem Spells.z_ne_zero (h : p.Spells x y) : p.z ≠ 0 := mt (cast_eq_zero h.lt).2 h.ne_zero

theorem cast_double_z (p : Jacobian) : (p.double.z : Coordinate) = 2 * (p.y * p.z) := by
  simp [double]

theorem cast_double_x (p : Jacobian) : (p.double.x : Coordinate) =
    (3 * ((p.x - (p.z : Coordinate) ^ 2) * (p.x + (p.z : Coordinate) ^ 2))) ^ 2 -
      8 * (p.x * (p.y : Coordinate) ^ 2) := by
  simp [double, sq]

theorem cast_double_y (p : Jacobian) : (p.double.y : Coordinate) =
    3 * ((p.x - (p.z : Coordinate) ^ 2) * (p.x + (p.z : Coordinate) ^ 2)) *
      (4 * (p.x * (p.y : Coordinate) ^ 2) - p.double.x) - 8 * (p.y : Coordinate) ^ 4 := by
  rw [cast_double_x]
  simp only [double, cast_sub_mul, cast_sub_sub, cast_mul, cast_add, Nat.cast_ofNat]
  ring

/-- The third coordinate of the double vanishes with that of the point. -/
theorem double_z_of_z (hz : p.z = 0) : p.double.z = 0 := by
  simp [double, mul, hz]

theorem Spells.double_z (h : p.Spells x y) :
    (p.double.z : Coordinate) = 2 * y * (p.z : Coordinate) ^ 4 := by
  rw [cast_double_z, h.y_eq]
  ring

theorem Spells.double (h : p.Spells x y) (ne : 2 * y ≠ 0)
    (tangent : ℓ * (2 * y) = 3 * (x ^ 2 - 1)) :
    p.double.Spells (curve.addX x x ℓ) (curve.addY x x y ℓ) where
  lt := mul_lt _ _
  ne_zero := by
    rw [h.double_z]
    exact mul_ne_zero ne (pow_ne_zero 4 h.ne_zero)
  x_eq := by
    rw [cast_double_x, h.double_z, h.x_eq, h.y_eq, addX_eq]
    linear_combination -(p.z : Coordinate) ^ 8 * (ℓ * (2 * y) + 3 * (x ^ 2 - 1)) * tangent
  y_eq := by
    rw [cast_double_y, cast_double_x, h.double_z, h.x_eq, h.y_eq, addY_eq]
    linear_combination (p.z : Coordinate) ^ 12 * ((3 * (x ^ 2 - 1)) ^ 2 +
      3 * (x ^ 2 - 1) * (ℓ * (2 * y)) + (ℓ * (2 * y)) ^ 2 - 12 * x * y ^ 2) * tangent

theorem Stands.double {P : curve.Point} (hP : p.Stands P) : p.double.Stands (P + P) := by
  cases hP with
  | neutral hz =>
    rw [add_zero]
    exact .neutral (double_z_of_z hz)
  | @affine x y h spells =>
    by_cases upright : y = curve.negY x y
    · have vanishes : (p.double.z : Coordinate) = 0 := by
        rw [spells.double_z]
        linear_combination (p.z : Coordinate) ^ 4 * (upright.trans (negY_eq x y))
      rw [WeierstrassCurve.Affine.Point.add_self_of_Y_eq upright]
      exact .neutral ((cast_eq_zero (mul_lt _ _)).1 vanishes)
    · rw [WeierstrassCurve.Affine.Point.add_self_of_Y_ne upright]
      exact .affine _ (spells.double (two_mul_ne_zero upright) (slope_self upright))

/-- How far the second point lies to the right of the first, up to a factor. -/
def run (p q : Jacobian) : Nat := sub (mul q.x (mul p.z p.z)) (mul p.x (mul q.z q.z))

/-- How far the second point lies above the first, up to a factor. -/
def rise (p q : Jacobian) : Nat :=
  sub (mul q.y (mul p.z (mul p.z p.z))) (mul p.y (mul q.z (mul q.z q.z)))

theorem sum_of_left (hp : p.z = 0) : p.sum q = q := if_pos hp

theorem sum_of_right (hp : p.z ≠ 0) (hq : q.z = 0) : p.sum q = p := by
  rw [sum, if_neg hp, if_pos hq]

theorem sum_of_same (hp : p.z ≠ 0) (hq : q.z ≠ 0) (hx : run p q = 0) (hy : rise p q = 0) :
    p.sum q = p.double := by
  rw [sum, if_neg hp, if_neg hq]
  exact (if_pos hx).trans (if_pos hy)

theorem sum_of_above (hp : p.z ≠ 0) (hq : q.z ≠ 0) (hx : run p q = 0) (hy : rise p q ≠ 0) :
    p.sum q = neutral := by
  rw [sum, if_neg hp, if_neg hq]
  exact (if_pos hx).trans (if_neg hy)

theorem sum_of_apart (hp : p.z ≠ 0) (hq : q.z ≠ 0) (hx : run p q ≠ 0) :
    let square := mul (run p q) (run p q)
    let cube := mul (run p q) square
    let v := mul (mul p.x (mul q.z q.z)) square
    let x := sub (sub (mul (rise p q) (rise p q)) cube) (mul 2 v)
    p.sum q = ⟨x, sub (mul (rise p q) (sub v x)) (mul (mul p.y (mul q.z (mul q.z q.z))) cube),
      mul (run p q) (mul p.z q.z)⟩ := by
  rw [sum, if_neg hp, if_neg hq]
  exact if_neg hx

theorem Spells.cast_run (hp : p.Spells x₁ y₁) (hq : q.Spells x₂ y₂) :
    (run p q : Coordinate) = (x₂ - x₁) * ((p.z : Coordinate) * q.z) ^ 2 := by
  simp only [run, cast_sub_mul, cast_mul, hp.x_eq, hq.x_eq]
  ring

theorem Spells.cast_rise (hp : p.Spells x₁ y₁) (hq : q.Spells x₂ y₂) :
    (rise p q : Coordinate) = (y₂ - y₁) * ((p.z : Coordinate) * q.z) ^ 3 := by
  simp only [rise, cast_sub_mul, cast_mul, hp.y_eq, hq.y_eq]
  ring

theorem Spells.run_eq_zero (hp : p.Spells x₁ y₁) (hq : q.Spells x₂ y₂) :
    run p q = 0 ↔ x₁ = x₂ := by
  have ne := pow_ne_zero 2 (mul_ne_zero hp.ne_zero hq.ne_zero)
  have zero : (run p q : Coordinate) = 0 ↔ run p q = 0 := cast_eq_zero (sub_lt _ _)
  rw [← zero, hp.cast_run hq, mul_eq_zero_iff_right ne, sub_eq_zero, eq_comm]

theorem Spells.rise_eq_zero (hp : p.Spells x₁ y₁) (hq : q.Spells x₂ y₂) :
    rise p q = 0 ↔ y₁ = y₂ := by
  have ne := pow_ne_zero 3 (mul_ne_zero hp.ne_zero hq.ne_zero)
  have zero : (rise p q : Coordinate) = 0 ↔ rise p q = 0 := cast_eq_zero (sub_lt _ _)
  rw [← zero, hp.cast_rise hq, mul_eq_zero_iff_right ne, sub_eq_zero, eq_comm]

theorem Spells.sum (hp : p.Spells x₁ y₁) (hq : q.Spells x₂ y₂) (apart : x₁ ≠ x₂)
    (line : ℓ * (x₂ - x₁) = y₂ - y₁) :
    (p.sum q).Spells (curve.addX x₁ x₂ ℓ) (curve.addY x₁ x₂ y₁ ℓ) := by
  have sum := sum_of_apart hp.z_ne_zero hq.z_ne_zero (mt (hp.run_eq_zero hq).1 apart)
  have run := hp.cast_run hq
  have rise := hp.cast_rise hq
  rw [← line] at rise
  have z : ((p.sum q).z : Coordinate) = (x₂ - x₁) * ((p.z : Coordinate) * q.z) ^ 3 := by
    simp only [sum, cast_mul, run]
    ring
  refine ⟨?lt, ?ne_zero, ?x_eq, ?y_eq⟩
  case lt =>
    rw [sum]
    exact mul_lt _ _
  case ne_zero =>
    rw [z]
    exact mul_ne_zero (sub_ne_zero.2 apart.symm)
      (pow_ne_zero 3 (mul_ne_zero hp.ne_zero hq.ne_zero))
  case x_eq =>
    rw [z, addX_eq]
    simp only [sum, cast_sub_mul, cast_mul, run, rise, hp.x_eq, Nat.cast_ofNat]
    ring
  case y_eq =>
    rw [z, addY_eq]
    simp only [sum, cast_sub_mul, cast_sub_sub, cast_mul, run, rise, hp.x_eq, hp.y_eq,
      Nat.cast_ofNat]
    ring

theorem Stands.sum {P Q : curve.Point} (hP : p.Stands P) (hQ : q.Stands Q) :
    (p.sum q).Stands (P + Q) := by
  cases hP with
  | neutral hp => rwa [sum_of_left hp, zero_add]
  | @affine x₁ y₁ h₁ hp =>
    cases hQ with
    | neutral hq =>
      rw [sum_of_right hp.z_ne_zero hq, add_zero]
      exact .affine h₁ hp
    | @affine x₂ y₂ h₂ hq =>
      have hp' := hp.z_ne_zero
      have hq' := hq.z_ne_zero
      by_cases hx : x₁ = x₂
      · by_cases hy : y₁ = y₂
        · rw [sum_of_same hp' hq' ((hp.run_eq_zero hq).2 hx) ((hp.rise_eq_zero hq).2 hy)]
          subst hx hy
          exact Stands.double (.affine h₁ hp)
        · rw [sum_of_above hp' hq' ((hp.run_eq_zero hq).2 hx) (mt (hp.rise_eq_zero hq).1 hy)]
          have opposite : y₁ = curve.negY x₂ y₂ :=
            (WeierstrassCurve.Affine.Y_eq_of_X_eq h₁.1 h₂.1 hx).resolve_left hy
          rw [WeierstrassCurve.Affine.Point.add_of_Y_eq hx opposite]
          exact stands_neutral
      · rw [WeierstrassCurve.Affine.Point.add_of_X_ne hx]
        exact .affine _ (hp.sum hq hx (slope_of_ne hx))

end Jacobian

end Lineage.Curve
