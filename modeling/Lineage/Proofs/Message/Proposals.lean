import Lineage.Message
import Mathlib.Tactic.Common

/-!
# The account that a message proposes

A certificate gives an account just if it has two approvals. The account has these for its parents,
and the message that carries the certificate for its birth message.
-/
namespace Lineage

namespace Certificate

variable {c : Certificate} {d : Digest}

theorem toAccount_eq_ok_iff {a : Account} : c.toAccount d = .ok a ↔
    ∃ first second, c.approvals = [first, second] ∧
      a = ⟨c.identity, some (first, second), some d⟩ := by
  obtain ⟨identity, approvals⟩ := c
  match approvals with
  | [] => simp [toAccount]
  | [_] => simp [toAccount]
  | [first, second] => simp [toAccount, eq_comm]
  | _ :: _ :: _ :: _ => simp [toAccount]

theorem toAccount_eq_error_iff {e : BirthError} : c.toAccount d = .error e ↔
    c.approvals.length ≠ 2 ∧ e = .parentCount c.approvals.length := by
  obtain ⟨identity, approvals⟩ := c
  match approvals with
  | [] => simp [toAccount, eq_comm]
  | [_] => simp [toAccount, eq_comm]
  | [_, _] => simp [toAccount]
  | _ :: _ :: _ :: _ => simp [toAccount, eq_comm]

theorem exists_toAccount (h : c.approvals.length = 2) (d : Digest) :
    ∃ a, c.toAccount d = .ok a := by
  cases hc : c.toAccount d with
  | ok a => exact ⟨a, rfl⟩
  | error e => exact absurd h (toAccount_eq_error_iff.1 hc).1

end Certificate

namespace Message

variable {m : Message} {a : Account}

theorem proposedAccount_of_text (h : m.body.kind = .text) : m.proposedAccount = .ok none := by
  unfold proposedAccount
  cases hb : m.body with
  | text content => rfl
  | birth c => rw [hb] at h; cases h

/-- A message proposes the account that its certificate gives under its id. -/
theorem proposedAccount_eq_ok_iff :
    m.proposedAccount = .ok (some a) ↔ ∃ c, m.body = .birth c ∧ c.toAccount m.id = .ok a := by
  unfold proposedAccount
  cases m.body with
  | text b => simp
  | birth c => cases hc : c.toAccount m.id <;> simp [hc]

theorem proposedAccount_eq_error_iff {e : Error} : m.proposedAccount = .error e ↔
    ∃ c, m.body = .birth c ∧ c.approvals.length ≠ 2 ∧
      e = .invalidBirth (.parentCount c.approvals.length) := by
  unfold proposedAccount
  cases m.body with
  | text b => simp
  | birth c =>
    cases hc : c.toAccount m.id with
    | ok a =>
      obtain ⟨first, second, two, -⟩ := Certificate.toAccount_eq_ok_iff.1 hc
      simp [hc, two]
    | error reason =>
      obtain ⟨count, rfl⟩ := Certificate.toAccount_eq_error_iff.1 hc
      simp [hc, count, eq_comm]

/-- An account that a message proposes names that message as its birth message. -/
theorem birthMessage_of_proposedAccount (h : m.proposedAccount = .ok (some a)) :
    a.birthMessage = some m.id := by
  obtain ⟨c, -, hc⟩ := proposedAccount_eq_ok_iff.1 h
  obtain ⟨first, second, -, rfl⟩ := Certificate.toAccount_eq_ok_iff.1 hc
  rfl

/-- The account that a message proposes has parents. -/
theorem exists_parents_of_proposedAccount (h : m.proposedAccount = .ok (some a)) :
    ∃ parents, a.parents = some parents := by
  obtain ⟨c, -, hc⟩ := proposedAccount_eq_ok_iff.1 h
  obtain ⟨first, second, -, rfl⟩ := Certificate.toAccount_eq_ok_iff.1 hc
  exact ⟨_, rfl⟩

/-- Whether the birth in a message, if there is one, has two approvals. -/
def IsComplete (m : Message) : Prop := ∀ c, m.body = .birth c → c.approvals.length = 2

theorem isComplete_iff : m.IsComplete ↔ ∃ proposal, m.proposedAccount = .ok proposal := by
  cases hp : m.proposedAccount with
  | ok proposal =>
    refine ⟨fun _ => ⟨proposal, rfl⟩, fun _ c hc => ?_⟩
    by_contra count
    rw [proposedAccount_eq_error_iff.2 ⟨c, hc, count, rfl⟩] at hp
    cases hp
  | error e =>
    obtain ⟨c, hc, count, -⟩ := proposedAccount_eq_error_iff.1 hp
    constructor
    · intro complete
      exact absurd (complete c hc) count
    · rintro ⟨_, h⟩
      cases h

end Message

end Lineage
