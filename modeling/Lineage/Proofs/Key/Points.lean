import Lineage.Key.Private
import Lineage.Proofs.Curve.Signatures

/-!
# The points of secrets

A secret is not zero and below the order of the generator, so its multiple of the generator has
coordinates. They spell a point on the curve, which bears out what the secret signs. Deriving the
public half of a key never fails.
-/
namespace Lineage

open Curve (Secret)
open Curve.Jacobian (base)

/-- The element of the group depends on its coordinates. -/
theorem Curve.OnCurve.element_inj {x y x' y' : Nat} {h : OnCurve x y} {h' : OnCurve x' y'} :
    h.element = h'.element ↔ x = x' ∧ y = y' := by
  obtain ⟨hx, hy, -⟩ := h
  obtain ⟨hx', hy', -⟩ := h'
  simp only [element, WeierstrassCurve.Affine.Point.some.injEq, ZMod.natCast_eq_natCast_iff']
  rw [Nat.mod_eq_of_lt hx, Nat.mod_eq_of_lt hy, Nat.mod_eq_of_lt hx', Nat.mod_eq_of_lt hy']

namespace Point

/-- The point is the multiple of the generator by the number that a word spells. -/
def IsMultiple (p : Point) (w : Word256) : Prop :=
  ∃ onCurve : p.OnCurve, w.toNat • base = Curve.OnCurve.element onCurve

end Point

namespace PrivateKey

/-- A secret has a point, which spells the coordinates of its multiple of the generator. -/
theorem exists_point (k : Secret) :
    ∃ p : Point, p.IsMultiple k.word ∧ Point.ofSecret k = p ∧ derivePoint k = .ok p := by
  obtain ⟨x, y, onCurve, found, element⟩ :=
    Curve.Jacobian.exists_affine?_multiple k.pos k.lt_groupOrder
  have hx : (Word256.ofNat x).toNat = x :=
    Curve.toNat_ofNat_of_lt (onCurve.1.trans Curve.fieldPrime_lt)
  have hy : (Word256.ofNat y).toNat = y :=
    Curve.toNat_ofNat_of_lt (onCurve.2.1.trans Curve.fieldPrime_lt)
  have affine : (Curve.Jacobian.multiple k.toNat Curve.Jacobian.generator).affine? = some (x, y) :=
    found
  refine ⟨⟨.ofNat x, .ofNat y⟩, ⟨?_, ?_⟩, ?_, ?_⟩
  · rwa [Point.OnCurve, hx, hy]
  · rw [element]
    exact Curve.OnCurve.element_inj.2 ⟨hx.symm, hy.symm⟩
  · simp only [Point.ofSecret, Point.ofJacobian, affine]
  · simp only [derivePoint, affine]

theorem isMultiple_ofSecret (k : Secret) : (Point.ofSecret k).IsMultiple k.word := by
  obtain ⟨p, multiple, rfl, -⟩ := exists_point k
  exact multiple

theorem derivePoint_eq (k : Secret) : derivePoint k = .ok (.ofSecret k) := by
  obtain ⟨p, -, rfl, derived⟩ := exists_point k
  exact derived

theorem derivePoints_eq (ks : List Secret) : derivePoints ks = .ok (ks.map Point.ofSecret) := by
  induction ks with
  | nil => rfl
  | cons k ks ih =>
    rw [derivePoints, derivePoint_eq, ih]
    rfl

/-- No key lacks its public half. -/
theorem derivePublic_eq (key : PrivateKey) : key.derivePublic = .ok key.publicKey := by
  rw [derivePublic, derivePoints_eq]
  cases key <;> rfl

end PrivateKey

namespace Point

theorem onCurve_ofSecret (k : Secret) : (ofSecret k).OnCurve :=
  (PrivateKey.isMultiple_ofSecret k).1

/-- What a secret signs, its point bears out. -/
theorem verifies_ofSecret {k : Secret} {digest : Word256} {part : Octets}
    (h : Curve.sign? k digest = some part) : (ofSecret k).verifies digest part = true := by
  obtain ⟨onCurve, multiple⟩ := PrivateKey.isMultiple_ofSecret k
  exact decide_eq_true (Curve.verifies_of_sign? h onCurve multiple)

end Point

end Lineage
