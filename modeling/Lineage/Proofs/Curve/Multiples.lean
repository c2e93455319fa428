import Lineage.Proofs.Curve.Group
import Mathlib.GroupTheory.OrderOfElement

/-!
# The multiples of the generator

Multiples computed along the bits stand for the multiples in the group of the curve. The order of
the generator is prime, so that no multiple by a number below the order is neutral; each of them has
affine coordinates, which are reduced and satisfy the equation.
-/
namespace Lineage.Curve

theorem fieldPrime_lt : fieldPrime < 2 ^ 256 := by decide

theorem groupOrder_lt : groupOrder < 2 ^ 256 := by decide

/-- Reduced coordinates satisfy the equation just if the elements of the field do. -/
theorem onCurve_iff {x y : Nat} :
    OnCurve x y ↔ x < fieldPrime ∧ y < fieldPrime ∧ curve.Equation x y := by
  have three : ((fieldPrime - 3 : Nat) : Coordinate) = -3 := by
    rw [Nat.cast_sub (by decide), ZMod.natCast_self]
    simp
  rw [OnCurve, equation_iff, ← ZMod.natCast_eq_natCast_iff']
  push_cast
  rw [three]
  refine and_congr_right' (and_congr_right' ?_)
  constructor <;> intro h <;> linear_combination h

/-- The element of the group with given coordinates. -/
def OnCurve.element {x y : Nat} (h : OnCurve x y) : curve.Point :=
  .some x y (nonsingular_iff.2 (onCurve_iff.1 h).2.2)

/-- What the coordinates of an element come to in numbers. -/
theorem onCurve_val {x y : Coordinate} (h : curve.Nonsingular x y) : OnCurve x.val y.val := by
  refine onCurve_iff.2 ⟨ZMod.val_lt x, ZMod.val_lt y, ?_⟩
  rw [ZMod.natCast_zmod_val, ZMod.natCast_zmod_val]
  exact nonsingular_iff.1 h

theorem eq_val {a : Nat} {c : Coordinate} (ha : a < fieldPrime) (h : (a : Coordinate) = c) :
    a = c.val := by
  rw [← h, ZMod.val_natCast_of_lt ha]

namespace Jacobian

variable {p q : Jacobian} {P Q : curve.Point}

theorem stands_ofAffine {x y : Nat} (h : OnCurve x y) : (ofAffine x y).Stands h.element := by
  refine .affine _ ⟨?_, ?_, ?_, ?_⟩
  · exact prime_fieldPrime.one_lt
  · simp [ofAffine]
  · simp [ofAffine]
  · simp [ofAffine]

theorem Stands.eq_zero_iff (h : p.Stands P) : P = 0 ↔ p.z = 0 := by
  cases h with
  | neutral hz => exact iff_of_true rfl hz
  | affine h spells =>
    exact iff_of_false (WeierstrassCurve.Affine.Point.some_ne_zero h) spells.z_ne_zero

/-- The division at the end gives the affine coordinates. -/
theorem Spells.affine? {x y : Coordinate} (h : p.Spells x y) :
    p.affine? = some (x.val, y.val) := by
  have inverse : (inverse fieldPrime p.z : Coordinate) = (p.z : Coordinate)⁻¹ :=
    cast_inverse fieldPrime_lt h.ne_zero
  have ne := h.ne_zero
  rw [Jacobian.affine?, if_neg h.z_ne_zero]
  refine congrArg some (Prod.ext (eq_val (mul_lt _ _) ?_) (eq_val (mul_lt _ _) ?_))
  · simp only [cast_mul, inverse, h.x_eq]
    field_simp
  · simp only [cast_mul, inverse, h.y_eq]
    field_simp

theorem affine?_of_zero (h : p.Stands 0) : p.affine? = none :=
  if_pos (h.eq_zero_iff.1 rfl)

/-- An element that is not neutral has coordinates. -/
theorem Stands.exists_affine? (h : p.Stands P) (ne : P ≠ 0) :
    ∃ x y, ∃ onCurve : OnCurve x y, p.affine? = some (x, y) ∧ P = onCurve.element := by
  cases h with
  | neutral => exact absurd rfl ne
  | @affine x y h spells =>
    refine ⟨x.val, y.val, onCurve_val h, spells.affine?, ?_⟩
    simp [OnCurve.element]

/-- The coordinates depend on the element alone. -/
theorem Stands.affine?_eq (hp : p.Stands P) (hq : q.Stands P) : p.affine? = q.affine? := by
  cases hp with
  | neutral hz => rw [Jacobian.affine?, if_pos hz, affine?_of_zero hq]
  | affine h spells =>
    cases hq with
    | affine _ spells' => rw [spells.affine?, spells'.affine?]

theorem Stands.multiple (h : p.Stands P) {k : Nat} (hk : k < 2 ^ 256) :
    (multiple k p).Stands (k • P) := by
  refine foldl_bits (motive := fun n (acc : Jacobian) => acc.Stands (n • P)) ?zero ?next hk
  case zero =>
    rw [zero_nsmul]
    exact stands_neutral
  case next =>
    intro n acc b reached
    rw [add_nsmul, mul_nsmul', two_nsmul]
    cases b with
    | false => simpa using reached.double
    | true => simpa using reached.double.sum h

theorem onCurve_generator : OnCurve generator.x generator.y := by decide +kernel

/-- The generator as an element of the group. -/
def base : curve.Point := onCurve_generator.element

theorem stands_generator : generator.Stands base := stands_ofAffine onCurve_generator

theorem base_ne_zero : base ≠ 0 := WeierstrassCurve.Affine.Point.some_ne_zero _

theorem groupOrder_nsmul_base : groupOrder • base = 0 := by
  have closed : (Jacobian.multiple groupOrder generator).z = 0 := by decide +kernel
  exact (stands_generator.multiple groupOrder_lt).eq_zero_iff.2 closed

theorem addOrderOf_base : addOrderOf base = groupOrder :=
  addOrderOf_eq_prime groupOrder_nsmul_base base_ne_zero

theorem nsmul_base_ne_zero {k : Nat} (pos : 0 < k) (lt : k < groupOrder) : k • base ≠ 0 := by
  intro zero
  rw [← addOrderOf_dvd_iff_nsmul_eq_zero, addOrderOf_base] at zero
  exact Nat.not_dvd_of_pos_of_lt pos lt zero

/-- A multiple below the order has coordinates. -/
theorem exists_affine?_multiple {k : Nat} (pos : 0 < k) (lt : k < groupOrder) :
    ∃ x y, ∃ onCurve : OnCurve x y, (Jacobian.multiple k generator).affine? = some (x, y) ∧
      k • base = onCurve.element :=
  (stands_generator.multiple (lt.trans groupOrder_lt)).exists_affine? (nsmul_base_ne_zero pos lt)

end Jacobian

end Lineage.Curve
