import Lineage.Proofs.Population.Admission

/-!
# What a birth check comes to

A birth passes the check just if two accounts of the population have approved it as its parents:
distinct ones of opposite parity, neither an ancestor of the other, of which the first has signed
the identity and the second the identity with the first signature. None of this is lost when more
accounts are admitted, so a birth that has been checked once stays in order.
-/
namespace Lineage

theorem Parity.eq_opposite_iff {p q : Parity} : q = p.opposite ↔ p ≠ q := by
  cases p <;> cases q <;> decide

namespace Population

variable {p p' : Population} {a x y : Account} {b : CheckedBirth} {first second : Approval}

/-- Both signatures count: the second one only if it covers the first. -/
theorem checkSignatures_eq_ok_iff {i : Identity} {firstKey secondKey : PublicKey} :
    checkSignatures i firstKey secondKey first second = .ok () ↔
      firstKey.verify i.firstPayload first.signature = .ok true ∧
      secondKey.verify (i.secondPayload first.signature) second.signature = .ok true := by
  unfold checkSignatures
  simp only [bind, Except.bind]
  cases firstKey.verify i.firstPayload first.signature with
  | error e => simp
  | ok verdict =>
    cases verdict with
    | false => simp
    | true =>
      cases secondKey.verify (i.secondPayload first.signature) second.signature with
      | error e => simp
      | ok verdict =>
        cases verdict with
        | true => simp
        | false =>
          cases secondKey.verify i.firstPayload second.signature with
          | error e => simp
          | ok verdict => cases verdict <;> simp

/-- Two approvals under an account that are in order, given by the accounts `x` and `y`. -/
structure Approved (p : Population) (a : Account) (first second : Approval) (x y : Account) :
    Prop where
  parents : a.parents = some (first, second)
  account_first : p.account? first.parent = some x
  account_second : p.account? second.parent = some y
  ne : first.parent ≠ second.parent
  parity : y.parity = x.parity.opposite
  first_not_ancestor : p.isAncestor first.parent second.parent = false
  second_not_ancestor : p.isAncestor second.parent first.parent = false
  signed_first : x.identity.key.verify a.identity.firstPayload first.signature = .ok true
  signed_second :
    y.identity.key.verify (a.identity.secondPayload first.signature) second.signature = .ok true

namespace Approved

theorem first_mem (h : Approved p a first second x y) : first.parent ∈ p :=
  mem_iff_account?.2 ⟨x, h.account_first⟩

theorem second_mem (h : Approved p a first second x y) : second.parent ∈ p :=
  mem_iff_account?.2 ⟨y, h.account_second⟩

theorem unrelated (h : Approved p a first second x y) :
    p.residents.related first.parent second.parent = false :=
  Dag.related_eq_false_iff.2 ⟨h.first_not_ancestor, h.second_not_ancestor⟩

theorem parentIds (h : Approved p a first second x y) :
    a.parentIds = some (first.parent, second.parent) := by
  rw [Account.parentIds, h.parents, Option.map_some]

end Approved

/-- The check passes just those births that are approved. -/
theorem checkBirth_eq_ok_iff :
    p.checkBirth a = .ok () ↔ ∃ first second x y, Approved p a first second x y := by
  constructor
  · intro h
    unfold checkBirth at h
    split at h
    · cases h
    · next first second hparents =>
      split at h
      · cases h
      · cases h
      · next x y hx hy =>
        split at h
        · cases h
        · next hne =>
          split at h
          · cases h
          · next parity =>
            split at h
            · cases h
            · next apart =>
              obtain ⟨signed_first, signed_second⟩ := checkSignatures_eq_ok_iff.1 h
              obtain ⟨down, up⟩ := Dag.related_eq_false_iff.1 (Bool.eq_false_iff.2 apart)
              exact ⟨first, second, x, y, hparents, hx, hy, hne, Parity.eq_opposite_iff.2 parity,
                down, up, signed_first, signed_second⟩
  · rintro ⟨first, second, x, y, h⟩
    have parity : x.parity ≠ y.parity := Parity.eq_opposite_iff.1 h.parity
    unfold checkBirth
    simp only [h.parents, h.account_first, h.account_second, if_neg h.ne, if_neg parity,
      h.unrelated]
    exact checkSignatures_eq_ok_iff.2 ⟨h.signed_first, h.signed_second⟩

theorem verifyBirth_eq_ok_iff_approved : p.verifyBirth a = .ok b ↔
    b.account = a ∧ ∃ first second x y, Approved p a first second x y ∧
      b.parents = (first.parent, second.parent) := by
  rw [verifyBirth_eq_ok_iff, checkBirth_eq_ok_iff]
  constructor
  · rintro ⟨⟨first, second, x, y, h⟩, hparents, haccount⟩
    rw [h.parentIds] at hparents
    exact ⟨haccount, first, second, x, y, h, (Option.some.inj hparents).symm⟩
  · rintro ⟨haccount, first, second, x, y, h, hparents⟩
    exact ⟨⟨first, second, x, y, h⟩, hparents ▸ h.parentIds, haccount⟩

/-- Nobody is born to an account and its ancestor, whoever signs. -/
theorem checkBirth_of_related (parents : a.parents = some (first, second))
    (hx : p.account? first.parent = some x) (hy : p.account? second.parent = some y)
    (related : p.residents.related first.parent second.parent = true) :
    p.checkBirth a = if x.parity = y.parity then .error .parityMismatch
      else .error (.ancestorConflict first.parent second.parent) := by
  unfold checkBirth
  simp only [parents, hx, hy, if_neg (Dag.ne_of_related related), related, if_true]

/-- Approvals that have been in order once stay so. -/
theorem Approved.mono (h : Approved p a first second x y) (grows : p.GrowsTo p') :
    Approved p' a first second x y where
  parents := h.parents
  account_first := grows.account?_mono h.account_first
  account_second := grows.account?_mono h.account_second
  ne := h.ne
  parity := h.parity
  first_not_ancestor := by rw [grows.isAncestor_eq h.second_mem, h.first_not_ancestor]
  second_not_ancestor := by rw [grows.isAncestor_eq h.first_mem, h.second_not_ancestor]
  signed_first := h.signed_first
  signed_second := h.signed_second

end Population

end Lineage
