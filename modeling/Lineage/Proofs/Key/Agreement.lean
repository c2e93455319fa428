import Lineage.Proofs.Key.Import
import Lineage.Proofs.Key.Verdicts

/-!
# Signing and checking agree

A key signs just if each of its secrets does. The signature has the part of each secret in the place
of the secret, and the public key that goes with it is the one that is derived from the key. Since
every point bears out what its own secret has signed, the signature is found good, by the key that
it carries as by the one that is derived, and also if its parts are judged in turn.
-/
namespace Lineage

open Curve (Secret)

/-- A signature as a key makes it of a digest: the part of each secret stands in the place of the
secret, and the public key that is attached is the derived one, with the points in the same order. -/
structure Signature.IsMade (s : Signature) (key : PrivateKey) (digest : Word256) : Prop where
  length_eq : s.octets.length = 64 * key.secrets.length
  part_eq : ∀ i (h : i < key.secrets.length),
    Curve.sign? key.secrets[i] digest = some (PublicKey.part s.octets i)
  derived : key.derivePublic = .ok s.publicKey
  scheme_eq : s.publicKey.scheme = key.scheme
  points_eq : s.publicKey.points = key.secrets.map Point.ofSecret

/-- Parts of the right length are found again where they have been joined. -/
theorem PublicKey.part_flatten {parts : List Octets}
    (whole : ∀ b ∈ parts, b.length = Point.signatureLength) (i : Nat) (hi : i < parts.length) :
    part parts.flatten i = parts[i] := by
  have length := Octets.length_flatten whole
  have count : i < (parts.flatten.length + Point.signatureLength - 1) / Point.signatureLength := by
    rw [length, Point.signatureLength]
    omega
  have piece : (Octets.pieces Point.signatureLength parts.flatten)[i]? = some parts[i] := by
    rw [Octets.pieces_flatten whole (by decide), List.getElem?_eq_getElem hi]
  rw [Octets.pieces, List.getElem?_map, List.getElem?_range count, Option.map_some] at piece
  exact Option.some.inj piece

namespace PrivateKey

variable {key : PrivateKey} {digest : Word256} {parts : List Octets}

/-- What secrets sign at all, their points bear out. -/
theorem signs_of_isSome {ks : List Secret} (h : ∀ k ∈ ks, (Curve.sign? k digest).isSome) :
    ∀ k ∈ ks, k.Signs digest := by
  intro k hk
  obtain ⟨part, hpart⟩ := Option.isSome_iff_exists.1 (h k hk)
  exact ⟨part, hpart, Point.verifies_ofSecret hpart⟩

theorem Signed.part_eq {ks : List Secret} (h : Signed digest ks parts) (i : Nat)
    (hi : i < ks.length) :
    Curve.sign? ks[i] digest = some (PublicKey.part parts.flatten i) := by
  have hi' : i < parts.length := List.Forall₂.length_eq h ▸ hi
  rw [PublicKey.part_flatten h.length_part i hi']
  exact (List.Forall₂.get h hi hi').1

theorem Signed.isMade (h : Signed digest key.secrets parts) :
    (⟨key.publicKey, parts.flatten⟩ : Signature).IsMade key digest where
  length_eq := h.length_flatten.trans (Nat.mul_comm ..)
  part_eq := h.part_eq
  derived := derivePublic_eq key
  scheme_eq := scheme_publicKey key
  points_eq := points_publicKey key

theorem signAll_of_sign?_eq_none {ks : List Secret} {k : Secret} (hk : k ∈ ks)
    (unsigned : Curve.sign? k digest = none) :
    signAll digest ks = .error (.signing "signature error") := by
  induction ks with
  | nil => cases hk
  | cons l ks ih =>
    cases hl : Curve.sign? l digest with
    | none =>
      rw [signAll, signPart, hl]
      rfl
    | some part =>
      have later : k ∈ ks := by
        rcases List.mem_cons.1 hk with rfl | later
        · rw [unsigned] at hl
          cases hl
        · exact later
      rw [signAll, signPart_of_sign? hl, ih later]
      rfl

/-- A key signs just if each of its secrets does. -/
theorem exists_sign_iff (key : PrivateKey) (digest : Word256) :
    (∃ s, key.sign digest = .ok s) ↔ ∀ k ∈ key.secrets, (Curve.sign? k digest).isSome := by
  constructor
  · rintro ⟨s, hs⟩ k hk
    by_contra unsigned
    rw [sign, signAll_of_sign?_eq_none hk (Option.not_isSome_iff_eq_none.1 unsigned)] at hs
    cases hs
  · intro signs
    obtain ⟨parts, signed⟩ := exists_signed (signs_of_isSome signs)
    exact ⟨_, sign_of_signed signed⟩

theorem onCurve_publicKey (key : PrivateKey) : ∀ p ∈ key.publicKey.points, p.OnCurve := by
  rw [points_publicKey, List.forall_mem_map]
  exact fun k _ => Point.onCurve_ofSecret k

/-- Every signature that a key makes consists of the parts of its secrets. -/
theorem exists_signed_of_sign {s : Signature} (h : key.sign digest = .ok s) :
    ∃ parts, Signed digest key.secrets parts ∧ s = ⟨key.publicKey, parts.flatten⟩ := by
  obtain ⟨parts, signed⟩ := exists_signed (signs_of_isSome ((exists_sign_iff key digest).1 ⟨s, h⟩))
  exact ⟨parts, signed, Except.ok.inj (h.symm.trans (sign_of_signed signed))⟩

/-- A key signs a digest just if each of its secrets does. What it makes then is found good by the
attached public key and by the derived one, also if the parts are judged in turn. -/
theorem sign_agrees (key : PrivateKey) (ne : key.secrets ≠ []) (digest : Word256) :
    ((∃ s, key.sign digest = .ok s) ↔ ∀ k ∈ key.secrets, (Curve.sign? k digest).isSome) ∧
    ∀ s, key.sign digest = .ok s →
      s.IsMade key digest ∧ s.verify digest = .ok true ∧
      (key.derivePublic >>= fun half => half.verify digest s.octets) = .ok true ∧
      PublicKey.judgeInTurn digest s.publicKey.points
        (s.octets.pieces Point.signatureLength) = .ok true := by
  refine ⟨exists_sign_iff key digest, ?_⟩
  intro s hs
  obtain ⟨parts, signed, rfl⟩ := exists_signed_of_sign hs
  have good := verify_of_signed ne signed
  have fits := PublicKey.fits_of_verify_eq_ok good
  refine ⟨signed.isMade, good, ?derived, ?inTurn⟩
  case derived =>
    rw [derivePublic_eq]
    exact good
  case inTurn =>
    rw [← PublicKey.verify_eq_judgeInTurn (onCurve_publicKey key) fits]
    exact good

end PrivateKey

namespace Sample

/-- The secret two. -/
def twoSecret : Secret := ⟨.ofNat 2, by decide, by decide⟩

theorem two_signs : (Curve.sign? twoSecret default).isSome := by decide +kernel

end Sample

namespace PrivateKey

open Sample

/-- A key with the same secret twice signs with two parts. -/
theorem sign_agrees_twice : ∃ s,
    (threshold [twoSecret, twoSecret]).sign default = .ok s ∧ s.octets.length = 128 ∧
      s.verify default = .ok true := by
  have signs : ∀ k ∈ [twoSecret, twoSecret], (Curve.sign? k default).isSome := by
    simpa using two_signs
  obtain ⟨succeeds, agrees⟩ :=
    sign_agrees (threshold [twoSecret, twoSecret]) (List.cons_ne_nil _ _) default
  obtain ⟨s, signed⟩ := succeeds.2 signs
  obtain ⟨made, good, -⟩ := agrees s signed
  exact ⟨s, signed, made.length_eq, good⟩

end PrivateKey

end Lineage
