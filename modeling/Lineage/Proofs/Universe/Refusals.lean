import Lineage.Proofs.Key.Signatures
import Lineage.Proofs.Universe.Atomicity
import Lineage.Proofs.Universe.Creation
import Lineage.Proofs.Universe.Provenance

/-!
# Which messages are taken in

A message is stored just if it is new, has the id of its content, is signed by an account, names
the true senders of stored messages and, if it carries a birth, has the signatures of two parents.
These conditions are checked in this order, and a message is refused for the first of them that it
fails, whatever else is wrong with it.
-/
namespace Lineage

namespace Message

theorem verifySignature_of_ok {m : Message} {k : PublicKey} {verdict : Bool}
    (h : k.verify m.signedDigest m.signature = .ok verdict) :
    m.verifySignature k = .ok verdict := by
  simp only [verifySignature, h]

theorem verifySignature_of_error {m : Message} {k : PublicKey} {e : KeyError}
    (h : k.verify m.signedDigest m.signature = .error e) :
    m.verifySignature k = .error (.key e) := by
  simp only [verifySignature, h]

end Message

namespace Universe

variable {u : Universe} {m : Message} {e : UniverseError} {r : Message.Reference}

/-- A reference names a stored message and its true sender. -/
def Resolves (u : Universe) (r : Message.Reference) : Prop :=
  ∃ target, u.messages.value? r.message = some target ∧ target.sender = r.sender

/-- The octets under a message are of the form that a key asks for, and are a signature by it. -/
structure SignedBy (m : Message) (k : PublicKey) : Prop where
  fits : k.Fits m.signature
  verified : k.verify m.signedDigest m.signature = .ok true

/-- All that a message has to meet to be stored. -/
structure Acceptable (u : Universe) (m : Message) : Prop where
  fresh : m.id ∉ u.messages
  contentId_eq : m.contentId = m.id
  signed : ∃ a, u.population.account? m.sender = some a ∧ SignedBy m a.identity.key
  references : ∀ r ∈ m.references, Resolves u r
  complete : m.IsComplete

/-- A message that may be by its sender: it is new, has the id of its content, and the sender is an
account. -/
structure Sent (u : Universe) (m : Message) (a : Account) : Prop where
  fresh : m.id ∉ u.messages
  contentId_eq : m.contentId = m.id
  sender : u.population.account? m.sender = some a

/-- What is wrong with a reference. -/
inductive Dangling (u : Universe) (m : Message) (r : Message.Reference) : UniverseError → Prop where
  | unknown (absent : r.message ∉ u.messages) :
      Dangling u m r (.unknownReference m.id r.message)
  | mismatch {target : Message} (stored : u.messages.value? r.message = some target)
      (other : target.sender ≠ r.sender) : Dangling u m r (.referenceMismatch m.id r.message)

/-- What is wrong with a message first, in the order of the checks: each case says that all earlier
checks pass. -/
inductive Fault (u : Universe) (m : Message) : UniverseError → Prop where
  | duplicate (known : m.id ∈ u.messages) : Fault u m (.duplicateMessage m.id)
  | malformed (fresh : m.id ∉ u.messages) (other : m.contentId ≠ m.id) :
      Fault u m (.malformedMessage m.id)
  | stranger (fresh : m.id ∉ u.messages) (contentId_eq : m.contentId = m.id)
      (unknown : m.sender ∉ u.population) : Fault u m (.invalidSender m.sender)
  | unfit {a : Account} (sent : Sent u m a) (unfit : ¬ a.identity.key.Fits m.signature)
      {reason : KeyError}
      (refused : a.identity.key.verify m.signedDigest m.signature = .error reason) :
      Fault u m (.faulty (.key reason))
  | forged {a : Account} (sent : Sent u m a) (fits : a.identity.key.Fits m.signature)
      (refuted : a.identity.key.verify m.signedDigest m.signature = .ok false) :
      Fault u m (.invalidSignature m.id)
  | reference {a : Account} (sent : Sent u m a) (signed : SignedBy m a.identity.key)
      {before after : List Message.Reference} {r : Message.Reference}
      (split : m.references = before ++ r :: after) (resolved : ∀ q ∈ before, Resolves u q)
      {e : UniverseError} (dangling : Dangling u m r e) : Fault u m e
  | parentCount {a : Account} (sent : Sent u m a) (signed : SignedBy m a.identity.key)
      (resolved : ∀ r ∈ m.references, Resolves u r) {c : Certificate} (body : m.body = .birth c)
      (count : c.approvals.length ≠ 2) :
      Fault u m (.faulty (.invalidBirth (.parentCount c.approvals.length)))

theorem checkReference_eq_error_iff : u.checkReference m r = .error e ↔ Dangling u m r e := by
  unfold checkReference
  cases ht : u.messages.value? r.message with
  | none =>
    have absent : r.message ∉ u.messages := by rw [Dag.mem_iff_value?, ht]; simp
    constructor
    · intro h
      cases h
      exact .unknown absent
    · rintro (_ | ⟨stored, -⟩)
      · rfl
      · rw [ht] at stored; cases stored
  | some target =>
    have stored : r.message ∈ u.messages := Dag.mem_iff_value?.2 ⟨target, ht⟩
    by_cases same : target.sender = r.sender
    · simp only [if_pos same]
      constructor
      · intro h; cases h
      · rintro (absent | ⟨ht', other⟩)
        · exact absurd stored absent
        · rw [ht] at ht'
          cases ht'
          exact absurd same other
    · simp only [if_neg same]
      constructor
      · intro h
        cases h
        exact .mismatch ht same
      · rintro (absent | _)
        · exact absurd stored absent
        · rfl

/-- The references are checked one after the other up to the first that does not resolve. -/
theorem checkReferences_eq_error_iff {rs : List Message.Reference} :
    u.checkReferences m rs = .error e ↔ ∃ before r after, rs = before ++ r :: after ∧
      (∀ q ∈ before, Resolves u q) ∧ Dangling u m r e := by
  induction rs with
  | nil => simp [checkReferences]
  | cons r rs ih =>
    cases hr : u.checkReference m r with
    | error e' =>
      have stops : u.checkReferences m (r :: rs) = .error e' := by
        simp only [checkReferences, hr, bind, Except.bind]
      rw [stops]
      constructor
      · intro h
        cases h
        exact ⟨[], r, rs, rfl, by simp, checkReference_eq_error_iff.1 hr⟩
      · rintro ⟨before, q, after, split, resolved, dangling⟩
        cases before with
        | nil =>
          cases split
          rw [← hr, checkReference_eq_error_iff]
          exact dangling
        | cons p before =>
          cases split
          have passes := checkReference_eq_ok_iff (m := m).2 (resolved r (List.mem_cons_self ..))
          rw [hr] at passes
          cases passes
    | ok _ =>
      have goesOn : u.checkReferences m (r :: rs) = u.checkReferences m rs := by
        simp only [checkReferences, hr, bind, Except.bind]
      rw [goesOn, ih]
      constructor
      · rintro ⟨before, q, after, rfl, resolved, dangling⟩
        exact ⟨r :: before, q, after, rfl,
          List.forall_mem_cons.2 ⟨checkReference_eq_ok_iff.1 hr, resolved⟩, dangling⟩
      · rintro ⟨before, q, after, split, resolved, dangling⟩
        cases before with
        | nil =>
          cases split
          rw [checkReference_eq_error_iff.2 dangling] at hr
          cases hr
        | cons p before =>
          cases split
          exact ⟨before, q, after, rfl, (List.forall_mem_cons.1 resolved).2, dangling⟩

/-- The signature is checked last before the references. -/
theorem Sent.validate_eq {a : Account} (sent : Sent u m a) (signed : SignedBy m a.identity.key) :
    u.validate m = u.checkReferences m m.references := by
  simp only [validate, if_neg sent.fresh, sent.contentId_eq, ne_eq, not_true_eq_false, if_false,
    sent.sender, Message.verifySignature_of_ok signed.verified]

theorem Acceptable.validate_eq (h : Acceptable u m) : u.validate m = .ok () := by
  obtain ⟨a, ha, signed⟩ := h.signed
  rw [Sent.validate_eq ⟨h.fresh, h.contentId_eq, ha⟩ signed]
  exact checkReferences_eq_ok_iff.2 h.references

/-- A message with a fault is refused for it, and nothing else comes of it. -/
theorem Fault.add_eq (f : Fault u m e) : u.add m = (u, .error e) := by
  have refused (e : UniverseError) (h : u.validate m = .error e) : u.add m = (u, .error e) := by
    rw [add, h]
  cases f with
  | duplicate known => exact add_of_mem known
  | malformed fresh other =>
    refine refused _ ?_
    rw [validate, if_neg fresh, if_pos other]
  | stranger fresh contentId_eq unknown =>
    refine refused _ ?_
    rw [validate, if_neg fresh, if_neg (not_not.2 contentId_eq),
      Population.account?_eq_none.2 unknown]
  | unfit sent _ rejected =>
    refine refused _ ?_
    simp only [validate, if_neg sent.fresh, if_neg (not_not.2 sent.contentId_eq), sent.sender,
      Message.verifySignature_of_error rejected]
  | forged sent _ refuted =>
    refine refused _ ?_
    simp only [validate, if_neg sent.fresh, if_neg (not_not.2 sent.contentId_eq), sent.sender,
      Message.verifySignature_of_ok refuted]
  | reference sent signed split resolved dangling =>
    refine refused _ ?_
    rw [sent.validate_eq signed, checkReferences_eq_error_iff]
    exact ⟨_, _, _, split, resolved, dangling⟩
  | parentCount sent signed resolved body count =>
    have valid : u.validate m = .ok () := by
      rw [sent.validate_eq signed]
      exact checkReferences_eq_ok_iff.2 resolved
    rw [add, valid, Message.proposedAccount_eq_error_iff.2 ⟨_, body, count, rfl⟩]

/-- A message that may not be stored fails one of the checks first. -/
theorem exists_fault (h : ¬ Acceptable u m) : ∃ e, Fault u m e := by
  by_cases fresh : m.id ∈ u.messages
  · exact ⟨_, .duplicate fresh⟩
  by_cases contentId_eq : m.contentId = m.id
  swap
  · exact ⟨_, .malformed fresh contentId_eq⟩
  cases ha : u.population.account? m.sender with
  | none => exact ⟨_, .stranger fresh contentId_eq (Population.account?_eq_none.1 ha)⟩
  | some a =>
    have sent : Sent u m a := ⟨fresh, contentId_eq, ha⟩
    by_cases fits : a.identity.key.Fits m.signature
    swap
    · obtain ⟨reason, refused⟩ := PublicKey.exists_error_of_not_fits fits m.signedDigest
      exact ⟨_, .unfit sent fits refused⟩
    have verdict := PublicKey.verify_of_fits fits m.signedDigest
    cases hv : a.identity.key.verifiesParts m.signedDigest
        (m.signature.pieces Point.signatureLength) with
    | false => exact ⟨_, .forged sent fits (hv ▸ verdict)⟩
    | true =>
      have signed : SignedBy m a.identity.key := ⟨fits, hv ▸ verdict⟩
      cases hr : u.checkReferences m m.references with
      | error e =>
        obtain ⟨before, r, after, split, resolved, dangling⟩ := checkReferences_eq_error_iff.1 hr
        exact ⟨e, .reference sent signed split resolved dangling⟩
      | ok _ =>
        have resolved := checkReferences_eq_ok_iff.1 hr
        have incomplete : ¬ m.IsComplete :=
          fun complete => h ⟨fresh, contentId_eq, ⟨a, ha, signed⟩, resolved, complete⟩
        simp only [Message.IsComplete, not_forall] at incomplete
        obtain ⟨c, body, count⟩ := incomplete
        exact ⟨_, .parentCount sent signed resolved body count⟩

/-- What is answered for a message that has been stored: it is accepted, its birth is rejected, or
another account has the name of the account that it proposes. -/
inductive Answer (u : Universe) (m : Message) : Except UniverseError Unit → Prop where
  | accepted : Answer u m (.ok ())
  | rejected (reason : BirthError) : Answer u m (.error (.birthRejected m.id reason))
  | collided {a b : Account} (proposal : m.proposedAccount = .ok (some a))
      (known : u.population.account? a.id = some b) (same : b.id = a.id) (other : b ≠ a) :
      Answer u m (.error (.population (.alreadyExists a.id)))

theorem Acceptable.stored (acceptable : Acceptable u m) (h : Linked u) :
    u.messages.insert ⟨m.id, m, .ofList (m.references.map (·.message))⟩ =
      .ok (u.add m).1.messages ∧ Answer u m (u.add m).2 := by
  obtain ⟨proposal, hp⟩ := Message.isComplete_iff.1 acceptable.complete
  have stored := mem_messages_add h acceptable.validate_eq hp
  have outcome := add_outcome h m
  generalize u.add m = r at stored outcome
  cases outcome with
  | refused _ => exact absurd stored acceptable.fresh
  | text s _ => exact ⟨s.messages, .accepted⟩
  | rejected s _ reason => exact ⟨s.messages, .rejected reason⟩
  | collided s proposal known =>
    obtain ⟨b, hb, same, other⟩ := s.collision h proposal known
    exact ⟨s.messages, .collided proposal hb same other⟩
  | born s _ s' => exact ⟨s'.messages ▸ s.messages, .accepted⟩

theorem Fault.not_acceptable (f : Fault u m e) (h : Linked u) : ¬ Acceptable u m := by
  intro acceptable
  obtain ⟨stored, -⟩ := acceptable.stored h
  rw [f.add_eq] at stored
  exact acceptable.fresh ((Dag.mem_insert stored).2 (.inl rfl))

/-- No fault is answered like a message that has been stored. -/
theorem Fault.not_answer (f : Fault u m e) : ¬ Answer u m (.error e) := by
  intro answer
  have late : e.IsLate := by cases answer <;> trivial
  cases f with
  | reference _ _ _ _ dangling => cases dangling <;> exact late
  | _ => exact late

/-- A message is stored, and answered as one that is, just if it is acceptable. Otherwise there is
a first condition that it fails, this is the error, and nothing changes. -/
theorem acceptance_exact (h : Reachable u) (m : Message) :
    (u.messages.insert ⟨m.id, m, .ofList (m.references.map (·.message))⟩ =
      .ok (u.add m).1.messages ↔ Acceptable u m) ∧
    (Answer u m (u.add m).2 ↔ Acceptable u m) ∧
    (∀ e, Fault u m e ↔ ¬ Acceptable u m ∧ u.add m = (u, .error e)) ∧
    (¬ Acceptable u m → ∃ e, Fault u m e) := by
  have linked := h.linked
  refine ⟨⟨?_, fun ok => (ok.stored linked).1⟩, ⟨?_, fun ok => (ok.stored linked).2⟩, ?_,
    exists_fault⟩
  · intro stored
    by_contra bad
    obtain ⟨e, fault⟩ := exists_fault bad
    rw [fault.add_eq] at stored
    exact Dag.fresh_of_insert stored ((Dag.mem_insert stored).2 (.inl rfl))
  · intro answer
    by_contra bad
    obtain ⟨e, fault⟩ := exists_fault bad
    rw [fault.add_eq] at answer
    exact fault.not_answer answer
  · intro e
    refine ⟨fun fault => ⟨fault.not_acceptable linked, fault.add_eq⟩, ?_⟩
    rintro ⟨bad, refused⟩
    obtain ⟨e', fault⟩ := exists_fault bad
    have same := fault.add_eq.symm.trans refused
    cases same
    exact fault

/-- The birth for which Adam stands twice is acceptable as a message; the first message is not, when
it comes again. -/
theorem acceptance_exact_rejected : ∃ u, create Sample.law Sample.genesis Sample.first = .ok u ∧
    Acceptable u Sample.rejected ∧
    u.add Sample.first = (u, .error (.duplicateMessage Sample.first.id)) := by
  obtain ⟨u, hu, hr, -⟩ := Sample.exists_founded
  have reachable : Reachable u := .create hu
  obtain ⟨p, u₁, created⟩ := exists_created hu
  have known : Sample.first.id ∈ u.messages := by
    rw [created.anchored.messages]
    exact created.recorded.stored
  refine ⟨u, hu, (acceptance_exact reachable Sample.rejected).2.1.1 ?_,
    (((acceptance_exact reachable Sample.first).2.2.1 _).1 (.duplicate known)).2⟩
  rw [hr]
  exact .rejected _

end Universe

end Lineage
