import Lineage.Law.Windows
import Mathlib.Tactic.Common

/-!
# The reasons for which births are refused

An account that has parents is never refused for having none, or too few or too many, neither by the
population nor by the law.
-/
namespace Lineage

/-- Whether a birth is refused because it is missing or cut short, rather than for its parents. -/
def BirthError.IsFormal : BirthError → Prop
  | .missingParents => True
  | .parentCount _ => True
  | _ => False

namespace Population

variable {p : Population} {a : Account} {reason : BirthError}

theorem not_isFormal_of_checkSignatures {i : Identity} {firstKey secondKey : PublicKey}
    {first second : Approval}
    (h : checkSignatures i firstKey secondKey first second = .error reason) :
    ¬ reason.IsFormal := by
  unfold checkSignatures at h
  simp only [bind, Except.bind] at h
  cases hfirst : firstKey.verify i.firstPayload first.signature with
  | error e => rw [hfirst] at h; cases h; exact id
  | ok verdict =>
    rw [hfirst] at h
    cases verdict with
    | false => cases h; exact id
    | true =>
      cases hsecond : secondKey.verify (i.secondPayload first.signature) second.signature with
      | error e => simp only [hsecond] at h; cases h; exact id
      | ok verdict =>
        simp only [hsecond] at h
        cases verdict with
        | true => cases h
        | false =>
          cases alone : secondKey.verify i.firstPayload second.signature with
          | error e => simp only [alone] at h; cases h; exact id
          | ok verdict => simp only [alone] at h; cases verdict <;> cases h <;> exact id

/-- The check never blames the form of an account that has parents. -/
theorem not_isFormal_of_checkBirth {parents : Approval × Approval} (ha : a.parents = some parents)
    (h : p.checkBirth a = .error reason) : ¬ reason.IsFormal := by
  unfold checkBirth at h
  rw [ha] at h
  simp only at h
  split at h
  · cases h; exact id
  · cases h; exact id
  · split at h
    · cases h; exact id
    · split at h
      · cases h; exact id
      · split at h
        · cases h; exact id
        · exact not_isFormal_of_checkSignatures h

end Population

theorem Law.not_isFormal_of_checkParent {law : Parameters} {p : Population} {clock : Clock}
    {parent : Digest} {reason : BirthError} (h : checkParent law p clock parent = .error reason) :
    ¬ reason.IsFormal := by
  unfold checkParent at h
  split at h
  · cases h; exact id
  · cases h; exact id
  · split at h
    · cases h; exact id
    · simp only at h
      split at h
      · cases h; exact id
      · split at h
        · cases h; exact id
        · cases h

theorem Law.not_isFormal_of_checkParents {law : Parameters} {p : Population} {clock : Clock}
    {parents : Digest × Digest} {reason : BirthError}
    (h : checkParents law p parents clock = .error reason) : ¬ reason.IsFormal := by
  unfold checkParents at h
  cases first : checkParent law p clock parents.1 with
  | error e =>
    rw [first] at h
    cases h
    exact not_isFormal_of_checkParent first
  | ok _ =>
    rw [first] at h
    exact not_isFormal_of_checkParent h

end Lineage
