import Lineage.Curve.Ecdsa
import Lineage.Proofs.Curve.Multiples

/-!
# Signatures are borne out

A signature is made from a multiple of the generator, the nonce, and from the secret. The check
computes from the signature and from the public point a multiple of the generator again. The numbers
of which it is the multiple agree modulo the order of the generator, so both are the same element
of the group, and whatever is signed is found good.
-/
namespace Lineage.Curve

open Jacobian

variable {secret : Secret} {digest : Word256} {part : Octets}

theorem Jacobian.Stands.combination {p q : Jacobian} {P Q : curve.Point} (hP : p.Stands P)
    (hQ : q.Stands Q) {k l : Nat} (hk : k < 2 ^ 256) (hl : l < 2 ^ 256) :
    (combination k p l q).Stands (k • P + l • Q) := by
  rw [Jacobian.combination]
  refine foldl_zip_bits (motive := fun m n (acc : Jacobian) => acc.Stands (m • P + n • Q))
    ?zero ?next hk hl
  case zero =>
    rw [zero_nsmul, zero_nsmul, add_zero]
    exact stands_neutral
  case next =>
    rintro m n acc ⟨b, c⟩ reached
    have double : acc.double.Stands ((2 * m) • P + (2 * n) • Q) := by
      have twice := reached.double
      rwa [← two_nsmul, nsmul_add, ← mul_nsmul', ← mul_nsmul'] at twice
    rw [add_nsmul, add_nsmul, add_add_add_comm]
    cases b <;> cases c
    · simpa using double
    · simpa using double.sum hQ
    · simpa using double.sum hP
    · simpa using double.sum (hP.sum hQ)

/-- Multiples of the generator agree just if the numbers do modulo its order. -/
theorem nsmul_base_eq_iff {m n : Nat} :
    m • base = n • base ↔ (m : ZMod groupOrder) = (n : ZMod groupOrder) := by
  rw [nsmul_eq_nsmul_iff_modEq, addOrderOf_base, ZMod.natCast_eq_natCast_iff]

/-- What a signature is made of: a nonce, the coordinates of its multiple of the generator, and the
two scalars. -/
theorem exists_of_sign? (h : sign? secret digest = some part) :
    ∃ (k : Secret) (x y r s : Nat), (multiple k.toNat generator).affine? = some (x, y) ∧
      r = x % groupOrder ∧
      s = inverse groupOrder k.toNat * ((digest.toNat + r * secret.toNat) % groupOrder)
        % groupOrder ∧
      r ≠ 0 ∧ s ≠ 0 ∧ part = Octets.ofNat 32 r ++ Octets.ofNat 32 s := by
  simp only [sign?, Option.bind_eq_bind, Option.bind_eq_some_iff] at h
  obtain ⟨k, -, ⟨x, y⟩, hxy, h⟩ := h
  split at h
  · cases h
  next nonzero =>
    rw [not_or] at nonzero
    exact ⟨k, x, y, _, _, hxy, rfl, rfl, nonzero.1, nonzero.2, (Option.some.inj h).symm⟩

theorem mod_groupOrder_lt (n : Nat) : n % groupOrder < groupOrder := Nat.mod_lt _ (by decide)

theorem scalar_ne_zero {n : Nat} (pos : 0 < n) (lt : n < groupOrder) :
    (n : ZMod groupOrder) ≠ 0 := by
  rw [Ne, ZMod.natCast_eq_zero_iff]
  exact Nat.not_dvd_of_pos_of_lt pos lt

/-- The two multiples that the check adds are the one of the nonce. -/
theorem nonce_recovered {e d r s : Nat} (k : Secret)
    (hs : s = inverse groupOrder k.toNat * ((e + r * d) % groupOrder) % groupOrder) (ne : s ≠ 0) :
    let w := inverse groupOrder s
    ((e * w % groupOrder + r * w % groupOrder * d : Nat) : ZMod groupOrder) = k.toNat := by
  have k_ne : (k.toNat : ZMod groupOrder) ≠ 0 := scalar_ne_zero k.pos k.lt_groupOrder
  have s_ne : (s : ZMod groupOrder) ≠ 0 :=
    scalar_ne_zero (Nat.pos_of_ne_zero ne) (hs ▸ mod_groupOrder_lt _)
  have made : (s : ZMod groupOrder) * k.toNat = e + r * d := by
    rw [hs, ZMod.natCast_mod, Nat.cast_mul, ZMod.natCast_mod, cast_inverse groupOrder_lt k_ne]
    push_cast
    field_simp
  push_cast
  rw [ZMod.natCast_mod, ZMod.natCast_mod]
  push_cast
  rw [cast_inverse groupOrder_lt s_ne]
  field_simp
  linear_combination -made

/-- A number of 256 bits is read back from 32 octets. -/
theorem toNat_ofNat_of_lt {n : Nat} (lt : n < 2 ^ 256) :
    Octets.toNat (Octets.ofNat 32 n) = n := by
  have capacity : Octets.capacity 32 = 2 ^ 256 := by decide
  rw [Octets.toNat_ofNat, capacity, Nat.mod_eq_of_lt lt]

/-- A signature of a digest is borne out by the public point of the secret. -/
theorem verifies_of_sign? (h : sign? secret digest = some part) {x y : Nat} (onCurve : OnCurve x y)
    (publicPoint : secret.toNat • base = onCurve.element) :
    Verifies x y digest (Octets.toNat (part.take 32)) (Octets.toNat (part.drop 32)) := by
  obtain ⟨k, kx, ky, r, s, nonce, hr, hs, r_ne, s_ne, made⟩ := exists_of_sign? h
  have r_lt : r < groupOrder := hr ▸ mod_groupOrder_lt kx
  have s_lt : s < groupOrder := hs ▸ mod_groupOrder_lt _
  have checked := stands_generator.combination (stands_ofAffine onCurve)
    ((mod_groupOrder_lt (digest.toNat * inverse groupOrder s)).trans groupOrder_lt)
    ((mod_groupOrder_lt (r * inverse groupOrder s)).trans groupOrder_lt)
  have recovered := nsmul_base_eq_iff.2 (nonce_recovered k hs s_ne)
  rw [← publicPoint, ← mul_nsmul', ← add_nsmul, recovered] at checked
  have signed : (multiple k.toNat generator).Stands (k.toNat • base) :=
    stands_generator.multiple (k.lt_groupOrder.trans groupOrder_lt)
  have coordinates := (checked.affine?_eq signed).trans nonce
  rw [made, List.take_left' (Octets.length_ofNat 32 r), List.drop_left' (Octets.length_ofNat 32 r),
    toNat_ofNat_of_lt (r_lt.trans groupOrder_lt), toNat_ofNat_of_lt (s_lt.trans groupOrder_lt)]
  refine ⟨Nat.pos_of_ne_zero r_ne, r_lt, Nat.pos_of_ne_zero s_ne, s_lt, ?_⟩
  change Option.map (fun q => q.1 % groupOrder) (combination _ generator _ (ofAffine x y)).affine? =
    some r
  rw [coordinates, Option.map_some, hr]

end Lineage.Curve
