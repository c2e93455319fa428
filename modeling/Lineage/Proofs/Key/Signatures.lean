import Lineage.Key.Public
import Lineage.Proofs.Outcomes
import Mathlib.Tactic.Common

/-!
# Signatures that fit a key

A string of octets can be checked against a key just if it has one part for each of the key's
points, and one at least. Whatever else it holds, the check gives a verdict then. Otherwise the
reason of the refusal is in the lengths alone, so it is the same for every digest.
-/
namespace Lineage.PublicKey

/-- Whether a string of octets is as long as a signature by all points of a key. -/
def Fits (k : PublicKey) (signature : Octets) : Prop :=
  signature ≠ [] ∧ signature.length = k.points.length * Point.signatureLength

/-- The parts that a string of octets falls into are as many as the points of a key just if it is
not cut off within a part and has the right length. -/
theorem fits_iff {k : PublicKey} {signature : Octets} : k.Fits signature ↔
    ¬ (signature.length = 0 ∨ signature.length % Point.signatureLength ≠ 0) ∧
      signature.length / Point.signatureLength = k.points.length := by
  rw [Fits, Point.signatureLength, Ne, ← List.length_eq_zero_iff]
  omega

/-- The verdict of a check is on the parts, one for each point. -/
theorem verify_of_fits {k : PublicKey} {signature : Octets} (h : k.Fits signature)
    (digest : Word256) : k.verify digest signature =
      .ok (k.verifiesParts digest (signature.pieces Point.signatureLength)) := by
  obtain ⟨whole, count⟩ := fits_iff.1 h
  cases k with
  | single p =>
    have one : signature.length / Point.signatureLength = 1 := count
    simp only [verify, if_neg whole, one, ne_eq, not_true_eq_false, if_false]
  | threshold ps =>
    have many : ps.length = signature.length / Point.signatureLength := count.symm
    simp only [verify, if_neg whole, many, ne_eq, not_true_eq_false, if_false]

/-- Whether a string of octets is empty or ends within a part. -/
def Torn (signature : Octets) : Prop :=
  signature.length = 0 ∨ signature.length % Point.signatureLength ≠ 0

/-- Why a string of octets does not fit a key. It has parts at all before they are counted. -/
inductive Misfit : PublicKey → Octets → KeyError → Prop where
  | torn {k : PublicKey} {signature : Octets} (torn : Torn signature) :
      Misfit k signature (.malformedSignature signature.length Point.signatureLength)
  | several {p : Point} {signature : Octets} (whole : ¬ Torn signature)
      (count : signature.length / Point.signatureLength ≠ 1) :
      Misfit (.single p) signature
        (.schemeMismatch .single (.threshold (signature.length / Point.signatureLength)))
  | miscounted {ps : List Point} {signature : Octets} (whole : ¬ Torn signature)
      (count : signature.length / Point.signatureLength ≠ ps.length) :
      Misfit (.threshold ps) signature
        (.keyCountMismatch ps.length (signature.length / Point.signatureLength))

theorem Misfit.verify_eq {k : PublicKey} {signature : Octets} {e : KeyError}
    (h : Misfit k signature e) (digest : Word256) : k.verify digest signature = .error e := by
  unfold verify
  cases h with
  | torn torn => exact if_pos torn
  | several whole count => exact (if_neg whole).trans (if_pos count)
  | miscounted whole count => exact (if_neg whole).trans (if_pos count.symm)

theorem Misfit.not_fits {k : PublicKey} {signature : Octets} {e : KeyError}
    (h : Misfit k signature e) : ¬ k.Fits signature := by
  intro fits
  have refused := h.verify_eq default
  rw [verify_of_fits fits] at refused
  cases refused

theorem exists_misfit {k : PublicKey} {signature : Octets} (h : ¬ k.Fits signature) :
    ∃ e, Misfit k signature e := by
  by_cases torn : Torn signature
  · exact ⟨_, .torn torn⟩
  · have count : signature.length / Point.signatureLength ≠ k.points.length :=
      fun count => h (fits_iff.2 ⟨torn, count⟩)
    cases k with
    | single p => exact ⟨_, .several torn count⟩
    | threshold ps => exact ⟨_, .miscounted torn count⟩

theorem exists_error_of_not_fits {k : PublicKey} {signature : Octets} (h : ¬ k.Fits signature)
    (digest : Word256) : ∃ e, k.verify digest signature = .error e := by
  obtain ⟨e, misfit⟩ := exists_misfit h
  exact ⟨e, misfit.verify_eq digest⟩

/-- A check has no other errors than those of the length. -/
theorem verify_eq_error_iff {k : PublicKey} {digest : Word256} {signature : Octets} {e : KeyError} :
    k.verify digest signature = .error e ↔ Misfit k signature e := by
  have cover : k.Fits signature ∨ ∃ e, Misfit k signature e :=
    Classical.or_iff_not_imp_left.2 exists_misfit
  have good (fits : k.Fits signature) : ∃ verdict, k.verify digest signature = .ok verdict :=
    ⟨_, verify_of_fits fits digest⟩
  exact (exists_iff_of_cover cover good fun _ misfit => misfit.verify_eq digest).2 e

theorem fits_of_verify_eq_ok {k : PublicKey} {digest : Word256} {signature : Octets}
    {verdict : Bool} (h : k.verify digest signature = .ok verdict) : k.Fits signature := by
  by_contra unfit
  obtain ⟨e, misfit⟩ := exists_misfit unfit
  rw [misfit.verify_eq] at h
  cases h

end Lineage.PublicKey
