import Lineage.Proofs.Key.Signatures
import Lineage.Proofs.Population.Verdicts

/-!
# What is wrong with a birth

The rules of a birth are checked one after the other: both parents are named and known, they are
two, of different parity and not of one line, and both have signed in turn. A birth that breaks
several rules is refused for the first of them. Kinship is said here of what the accounts themselves
name as their parents. The graph has an edge for each of these and no others, so its search finds
just the lines of descent.
-/
namespace Lineage.Population

variable {g : GenesisPair} {law : Law.Parameters} {past : List Population} {p : Population}
  {a x y : Account} {d id : Digest} {first second : Approval} {reason : BirthError}

/-- Whether an account names another one as its parent. -/
def ParentOf (p : Population) (parent id : Digest) : Prop :=
  ∃ parents, p.HasParents id parents ∧ (parent = parents.1 ∨ parent = parents.2)

/-- Whether a line of descent leads from one account to another: from parent to child, once or more
often. -/
def AncestorOf (p : Population) : Digest → Digest → Prop := Relation.TransGen p.ParentOf

theorem mem_parentList_iff : d ∈ a.parentList ↔
    ∃ parents, a.parentIds = some parents ∧ (d = parents.1 ∨ d = parents.2) := by
  rw [Account.parentList]
  cases a.parentIds with
  | none => simp
  | some parents => simp

namespace Pedigree

theorem parentIn_iff (h : Pedigree g p) :
    Dag.ParentIn p.residents.newestFirst d id ↔ p.ParentOf d id := by
  constructor
  · rintro ⟨v, hv, rfl, hd⟩
    rw [h.parents v hv, DigestSet.mem_ofList, mem_parentList_iff] at hd
    obtain ⟨parents, named, one⟩ := hd
    exact ⟨parents, ⟨_, account?_eq_some_iff.2 ⟨v, hv, rfl, rfl⟩, named⟩, one⟩
  · rintro ⟨parents, ⟨a, ha, named⟩, one⟩
    obtain ⟨v, hv, rfl, rfl⟩ := account?_eq_some_iff.1 ha
    refine ⟨v, hv, rfl, ?_⟩
    rw [h.parents v hv, DigestSet.mem_ofList, mem_parentList_iff]
    exact ⟨parents, named, one⟩

/-- The search in the graph finds the lines of descent. -/
theorem isAncestor_iff (h : Pedigree g p) : p.isAncestor d id = true ↔ p.AncestorOf d id := by
  have same : Dag.ParentIn p.residents.newestFirst = p.ParentOf := by
    funext d id
    exact propext h.parentIn_iff
  rw [isAncestor, Dag.isAncestor_iff, Dag.mem_ancestors_iff, same, AncestorOf]

theorem related_iff (h : Pedigree g p) :
    p.residents.related d id = true ↔ p.AncestorOf d id ∨ p.AncestorOf id d := by
  rw [Dag.related, Bool.or_eq_true]
  exact or_congr h.isAncestor_iff h.isAncestor_iff

/-- Nobody is an ancestor of a genesis account. -/
theorem not_ancestorOf (h : Pedigree g p) (root : p.IsGenesis id) : ¬ p.AncestorOf d id := by
  intro line
  obtain ⟨_, -, parents, ⟨a, ha, named⟩, -⟩ := Relation.TransGen.tail'_iff.1 line
  rw [Account.parentIds, (h.parents_eq_none_iff ha).2 root] at named
  cases named

end Pedigree

/-- An account that names two accounts of the population as its parents. -/
structure Named (p : Population) (a : Account) (first second : Approval) (x y : Account) :
    Prop where
  parents : a.parents = some (first, second)
  account_first : p.account? first.parent = some x
  account_second : p.account? second.parent = some y

/-- Parents that may have a child: two accounts of different parity, none of which descends from the
other. -/
structure Couple (p : Population) (a : Account) (first second : Approval) (x y : Account) : Prop
    extends Named p a first second x y where
  ne : first.parent ≠ second.parent
  parity_ne : x.parity ≠ y.parity
  first_not_ancestor : ¬ p.AncestorOf first.parent second.parent
  second_not_ancestor : ¬ p.AncestorOf second.parent first.parent

/-- What is wrong with the signatures under an identity first. The last two cases are about a second
signature that does not cover the first one, whether or not it is good for the bare identity. -/
inductive SignatureFault (i : Identity) (firstKey secondKey : PublicKey) (first second : Approval) :
    BirthError → Prop where
  | firstUnfit {e : KeyError} (misfit : PublicKey.Misfit firstKey first.signature e) :
      SignatureFault i firstKey secondKey first second (.key e)
  | firstInvalid (refuted : firstKey.verify i.firstPayload first.signature = .ok false) :
      SignatureFault i firstKey secondKey first second (.signatureInvalid first.parent)
  | secondUnfit (signed : firstKey.verify i.firstPayload first.signature = .ok true)
      {e : KeyError} (misfit : PublicKey.Misfit secondKey second.signature e) :
      SignatureFault i firstKey secondKey first second (.key e)
  | outOfOrder (signed : firstKey.verify i.firstPayload first.signature = .ok true)
      (refuted : secondKey.verify (i.secondPayload first.signature) second.signature = .ok false)
      (alone : secondKey.verify i.firstPayload second.signature = .ok true) :
      SignatureFault i firstKey secondKey first second (.signatureOrder second.parent)
  | secondInvalid (signed : firstKey.verify i.firstPayload first.signature = .ok true)
      (refuted : secondKey.verify (i.secondPayload first.signature) second.signature = .ok false)
      (alone : secondKey.verify i.firstPayload second.signature = .ok false) :
      SignatureFault i firstKey secondKey first second (.signatureInvalid second.parent)

/-- What is wrong with a birth first, in the order of the checks: each case says that all earlier
rules are met. -/
inductive BirthFault (p : Population) (a : Account) : BirthError → Prop where
  | orphan (none : a.parents = none) : BirthFault p a .missingParents
  | firstUnknown {first second : Approval} (parents : a.parents = some (first, second))
      (unknown : first.parent ∉ p) : BirthFault p a (.unknownParent first.parent)
  | secondUnknown {first second : Approval} (parents : a.parents = some (first, second))
      (known : first.parent ∈ p) (unknown : second.parent ∉ p) :
      BirthFault p a (.unknownParent second.parent)
  | twice {first second : Approval} {x y : Account} (named : Named p a first second x y)
      (same : first.parent = second.parent) : BirthFault p a (.sameParent first.parent)
  | parity {first second : Approval} {x y : Account} (named : Named p a first second x y)
      (ne : first.parent ≠ second.parent) (same : x.parity = y.parity) :
      BirthFault p a .parityMismatch
  | related {first second : Approval} {x y : Account} (named : Named p a first second x y)
      (ne : first.parent ≠ second.parent) (parity_ne : x.parity ≠ y.parity)
      (line : p.AncestorOf first.parent second.parent ∨ p.AncestorOf second.parent first.parent) :
      BirthFault p a (.ancestorConflict first.parent second.parent)
  | signatures {first second : Approval} {x y : Account} (couple : Couple p a first second x y)
      {reason : BirthError}
      (fault : SignatureFault a.identity x.identity.key y.identity.key first second reason) :
      BirthFault p a reason

theorem checkSignatures_eq_error_iff {i : Identity} {firstKey secondKey : PublicKey} :
    checkSignatures i firstKey secondKey first second = .error reason ↔
      SignatureFault i firstKey secondKey first second reason := by
  constructor
  · intro h
    unfold checkSignatures at h
    simp only [bind, Except.bind] at h
    cases signed : firstKey.verify i.firstPayload first.signature with
    | error e =>
      rw [signed] at h
      cases h
      exact .firstUnfit (PublicKey.verify_eq_error_iff.1 signed)
    | ok verdict =>
      rw [signed] at h
      cases verdict with
      | false =>
        cases h
        exact .firstInvalid signed
      | true =>
        cases refuted : secondKey.verify (i.secondPayload first.signature) second.signature with
        | error e =>
          simp only [refuted] at h
          cases h
          exact .secondUnfit signed (PublicKey.verify_eq_error_iff.1 refuted)
        | ok verdict =>
          simp only [refuted] at h
          cases verdict with
          | true => cases h
          | false =>
            have fits := PublicKey.verify_of_fits (PublicKey.fits_of_verify_eq_ok refuted)
              i.firstPayload
            generalize secondKey.verifiesParts i.firstPayload _ = alone at fits
            simp only [fits] at h
            cases alone with
            | true =>
              cases h
              exact .outOfOrder signed refuted fits
            | false =>
              cases h
              exact .secondInvalid signed refuted fits
  · intro h
    unfold checkSignatures
    simp only [bind, Except.bind]
    cases h with
    | firstUnfit misfit => simp only [misfit.verify_eq]
    | firstInvalid refuted => simp [refuted]
    | secondUnfit signed misfit => simp [signed, misfit.verify_eq]
    | outOfOrder signed refuted alone => simp [signed, refuted, alone]
    | secondInvalid signed refuted alone => simp [signed, refuted, alone]

/-- The check of a birth whose parents are known, as far as the graph does not come into it. -/
theorem Named.checkBirth_eq (h : Named p a first second x y) : p.checkBirth a =
    if first.parent = second.parent then .error (.sameParent first.parent)
    else if x.parity = y.parity then .error .parityMismatch
    else if p.residents.related first.parent second.parent then
      .error (.ancestorConflict first.parent second.parent)
    else checkSignatures a.identity x.identity.key y.identity.key first second := by
  unfold checkBirth
  simp only [h.parents, h.account_first, h.account_second]

theorem Couple.checkBirth_eq (h : Couple p a first second x y) (pedigree : Pedigree g p) :
    p.checkBirth a =
      checkSignatures a.identity x.identity.key y.identity.key first second := by
  have unrelated : ¬ p.residents.related first.parent second.parent = true := by
    rw [pedigree.related_iff, not_or]
    exact ⟨h.first_not_ancestor, h.second_not_ancestor⟩
  rw [h.toNamed.checkBirth_eq, if_neg h.ne, if_neg h.parity_ne, if_neg unrelated]

/-- Either the parents may have a child, or the birth is refused before the signatures are looked
at. -/
theorem exists_couple_or_fault (p : Population) (a : Account) :
    (∃ first second x y, Couple p a first second x y) ∨ ∃ reason, BirthFault p a reason := by
  cases parents : a.parents with
  | none => exact .inr ⟨_, .orphan parents⟩
  | some approvals =>
    obtain ⟨first, second⟩ := approvals
    by_cases hfirst : first.parent ∈ p
    · by_cases hsecond : second.parent ∈ p
      · obtain ⟨x, hx⟩ := mem_iff_account?.1 hfirst
        obtain ⟨y, hy⟩ := mem_iff_account?.1 hsecond
        have named : Named p a first second x y := ⟨parents, hx, hy⟩
        by_cases same : first.parent = second.parent
        · exact .inr ⟨_, .twice named same⟩
        · by_cases parity : x.parity = y.parity
          · exact .inr ⟨_, .parity named same parity⟩
          · by_cases line : p.AncestorOf first.parent second.parent ∨
                p.AncestorOf second.parent first.parent
            · exact .inr ⟨_, .related named same parity line⟩
            · obtain ⟨down, up⟩ := not_or.1 line
              exact .inl ⟨first, second, x, y, named, same, parity, down, up⟩
      · exact .inr ⟨_, .secondUnknown parents hfirst hsecond⟩
    · exact .inr ⟨_, .firstUnknown parents hfirst⟩

/-- A birth with a fault is refused for it. -/
theorem BirthFault.checkBirth_eq (h : BirthFault p a reason) (pedigree : Pedigree g p) :
    p.checkBirth a = .error reason := by
  cases h with
  | orphan none => simp only [checkBirth, none]
  | firstUnknown parents unknown =>
    simp only [checkBirth, parents, account?_eq_none.2 unknown]
  | secondUnknown parents known unknown =>
    obtain ⟨x, hx⟩ := mem_iff_account?.1 known
    simp only [checkBirth, parents, hx, account?_eq_none.2 unknown]
  | twice named same => rw [named.checkBirth_eq, if_pos same]
  | parity named ne same => rw [named.checkBirth_eq, if_neg ne, if_pos same]
  | related named ne parity_ne line =>
    rw [named.checkBirth_eq, if_neg ne, if_neg parity_ne, if_pos (pedigree.related_iff.2 line)]
  | signatures couple fault =>
    rw [couple.checkBirth_eq pedigree, checkSignatures_eq_error_iff.2 fault]

/-- A birth is in order just if it has two parents of different parity, neither of them descended
from the other, who signed in turn. Otherwise it is refused for the first rule that it breaks. -/
theorem birth_check_exact (h : History g law past p) (a : Account) :
    (p.checkBirth a = .ok () ↔ ∃ first second x y, Couple p a first second x y ∧
      x.identity.key.verify a.identity.firstPayload first.signature = .ok true ∧
      y.identity.key.verify (a.identity.secondPayload first.signature) second.signature =
        .ok true) ∧
    ∀ reason, p.checkBirth a = .error reason ↔ BirthFault p a reason := by
  have pedigree := h.pedigree
  have faulty : ∀ {reason}, BirthFault p a reason → p.checkBirth a = .error reason :=
    fun fault => fault.checkBirth_eq pedigree
  refine ⟨⟨?passes, ?approved⟩, fun reason => ⟨?refused, faulty⟩⟩
  case passes =>
    intro passes
    rcases exists_couple_or_fault p a with ⟨first, second, x, y, couple⟩ | ⟨reason, fault⟩
    · rw [couple.checkBirth_eq pedigree, checkSignatures_eq_ok_iff] at passes
      exact ⟨first, second, x, y, couple, passes⟩
    · rw [faulty fault] at passes
      cases passes
  case approved =>
    rintro ⟨first, second, x, y, couple, signed⟩
    rw [couple.checkBirth_eq pedigree, checkSignatures_eq_ok_iff]
    exact signed
  case refused =>
    intro refused
    rcases exists_couple_or_fault p a with ⟨first, second, x, y, couple⟩ | ⟨other, fault⟩
    · rw [couple.checkBirth_eq pedigree, checkSignatures_eq_error_iff] at refused
      exact .signatures couple refused
    · rw [faulty fault] at refused
      cases refused
      exact fault

/-- Abel's parents may have a child and have signed his birth in turn. With either one standing for
both he is refused. -/
theorem birth_check_exact_abel : ∃ g law past p a first second x y, History g law past p ∧
    Couple p a first second x y ∧
    x.identity.key.verify a.identity.firstPayload first.signature = .ok true ∧
    p.checkBirth { a with parents := some (first, first) } = .error (.sameParent first.parent) ∧
    p.checkBirth { a with parents := none } = .error .missingParents := by
  obtain ⟨g, law, past, p, a, history, ha, hout⟩ := Sample.exists_descendant
  obtain ⟨-, q, hq, -, b, checked⟩ := history.exists_verified ha hout
  obtain ⟨before, earlier⟩ := history.of_mem (List.mem_cons_of_mem p hq)
  have passes : q.checkBirth a = .ok () := (verifyBirth_eq_ok_iff.1 checked).1
  obtain ⟨first, second, x, y, couple, signed, -⟩ := (birth_check_exact earlier a).1.1 passes
  refine ⟨g, law, before, q, a, first, second, x, y, earlier, couple, signed, ?twice, ?orphan⟩
  case twice =>
    exact ((birth_check_exact earlier _).2 _).2
      (.twice ⟨rfl, couple.account_first, couple.account_first⟩ rfl)
  case orphan => exact ((birth_check_exact earlier _).2 _).2 (.orphan rfl)

end Lineage.Population
