import Lineage.Proofs.Message.Proposals
import Lineage.Proofs.Population.Admission
import Lineage.Proofs.TimeProof.Counting
import Lineage.Universe

/-!
# How a universe changes

Whatever a call does to a universe is made of three kinds of changes: a valid message is stored
and counted, a checked birth is admitted and enrolled in the time proofs that let it pass, or a
time proof is set up. Each is described here with all that the universe has checked before it.
-/
namespace Lineage

/-- The refusals that the universe could give after its first change. -/
def UniverseError.IsLate : UniverseError → Prop
  | .birthRejected .. => True
  | .population _ => True
  | .graph _ => True
  | _ => False

namespace Universe

variable {u u' : Universe} {m : Message}

/-- A valid message is stored below its references, and is counted if its sender roots a time
proof. -/
structure Recorded (u : Universe) (m : Message) (u' : Universe) : Prop where
  contentId_eq : m.contentId = m.id
  signed : ∃ a, u.population.account? m.sender = some a ∧
    m.verifySignature a.identity.key = .ok true
  references : ∀ r ∈ m.references, ∃ target, u.messages.value? r.message = some target ∧
    target.sender = r.sender
  messages : u.messages.insert ⟨m.id, m, .ofList (m.references.map (·.message))⟩ = .ok u'.messages
  proofs : (m.sender ∉ u.proofs ∧ u'.proofs = u.proofs) ∨
    ∃ t t' sequence, u.proofs.get? m.sender = some t ∧ t.Extension m t' sequence ∧
      u'.proofs = u.proofs.insert m.sender t'
  population : u'.population = u.population
  snapshots : u'.snapshots = u.snapshots

/-- The time of a message in a time proof, and what the law says there of two parents. -/
def verdict (u : Universe) (t : TimeProof) (parents : Digest × Digest) (message : Digest) :
    Except BirthError Unit :=
  Law.checkParents u.population.law u.population parents
    (t.clockAt (t.causalTime u.messages message))

/-- A checked birth in a stored message is admitted. The account becomes a member of the time
proofs that let it pass, of which there is one at least. -/
structure Admitted (u : Universe) (b : Population.CheckedBirth) (message : Digest)
    (u' : Universe) : Prop where
  carried : ∃ m, u.messages.value? message = some m ∧ m.proposedAccount = .ok (some b.account)
  unborn : ∀ id a, u.population.account? id = some a → a.birthMessage ≠ some message
  checked : u.population.verifyBirth b.account = .ok b
  population : Population.Admission u.population b u'.population
  passes : ∃ root t, u.proofs.get? root = some t ∧ u.verdict t b.parents message = .ok ()
  proofs_none : ∀ root, u.proofs.get? root = none → u'.proofs.get? root = none
  proofs_ok : ∀ root t, u.proofs.get? root = some t → u.verdict t b.parents message = .ok () →
    ∃ t', u'.proofs.get? root = some t' ∧ t.Enrolment b.account.id [b.parents.1, b.parents.2]
      (t.causalTime u.messages message) t'
  proofs_error : ∀ root t, u.proofs.get? root = some t → u.verdict t b.parents message ≠ .ok () →
    u'.proofs.get? root = some t
  messages : u'.messages = u.messages
  snapshots : u'.snapshots = u.snapshots

/-- A time proof is set up on the sender of a stored message, with a snapshot of the accounts. -/
structure Anchored (u : Universe) (root anchor : Digest) (u' : Universe) : Prop where
  anchored : ∃ m, u.messages.value? anchor = some m ∧ m.sender = root
  fresh : root ∉ u.proofs
  resident : root ∈ u.population
  proofs : ∃ t, u.buildTimeProof root anchor = .ok t ∧ u'.proofs = u.proofs.insert root t
  snapshots : u.snapshots.insert ⟨root, .ofList u.population.ids, .ofList u.snapshots.ids⟩ =
    .ok u'.snapshots
  messages : u'.messages = u.messages
  population : u'.population = u.population

/-- One change of a universe. -/
inductive Transition (u : Universe) : Universe → Prop where
  | record {m : Message} {u' : Universe} (s : Recorded u m u') : Transition u u'
  | birth {b : Population.CheckedBirth} {message : Digest} {u' : Universe}
      (s : Admitted u b message u') : Transition u u'
  | anchor {root message : Digest} {u' : Universe} (s : Anchored u root message u') :
      Transition u u'

theorem checkReference_eq_ok_iff {r : Message.Reference} : u.checkReference m r = .ok () ↔
    ∃ target, u.messages.value? r.message = some target ∧ target.sender = r.sender := by
  unfold checkReference
  cases u.messages.value? r.message with
  | none => simp
  | some target => by_cases h : target.sender = r.sender <;> simp [h]

theorem checkReferences_eq_ok_iff {rs : List Message.Reference} :
    u.checkReferences m rs = .ok () ↔
      ∀ r ∈ rs, ∃ target, u.messages.value? r.message = some target ∧
        target.sender = r.sender := by
  induction rs with
  | nil => simp [checkReferences]
  | cons r rs ih =>
    rw [List.forall_mem_cons, ← ih, ← checkReference_eq_ok_iff (m := m), checkReferences]
    cases u.checkReference m r <;> simp [bind, Except.bind]

theorem validate_eq_ok_iff : u.validate m = .ok () ↔
    m.id ∉ u.messages ∧ m.contentId = m.id ∧
      (∃ a, u.population.account? m.sender = some a ∧
        m.verifySignature a.identity.key = .ok true) ∧
      ∀ r ∈ m.references, ∃ target, u.messages.value? r.message = some target ∧
        target.sender = r.sender := by
  rw [← checkReferences_eq_ok_iff (m := m), validate]
  by_cases fresh : m.id ∈ u.messages
  · simp [fresh]
  · by_cases hid : m.contentId = m.id
    · cases u.population.account? m.sender with
      | none => simp [fresh, hid]
      | some a =>
        cases hs : m.verifySignature a.identity.key with
        | error e => simp [fresh, hid, hs]
        | ok verdict => cases verdict <;> simp [fresh, hid, hs]
    · simp [fresh, hid]

theorem not_isLate_of_checkReferences {rs : List Message.Reference} {e : UniverseError}
    (h : u.checkReferences m rs = .error e) : ¬ e.IsLate := by
  induction rs with
  | nil => cases h
  | cons r rs ih =>
    unfold checkReferences at h
    cases hr : u.checkReference m r with
    | ok _ => rw [hr] at h; exact ih h
    | error e' =>
      rw [hr] at h
      cases h
      unfold checkReference at hr
      split at hr
      · cases hr; exact id
      · split at hr
        · cases hr
        · cases hr; exact id

theorem not_isLate_of_validate {e : UniverseError} (h : u.validate m = .error e) : ¬ e.IsLate := by
  unfold validate at h
  split at h
  · cases h; exact id
  · split at h
    · cases h; exact id
    · split at h
      · cases h; exact id
      · split at h
        · cases h; exact id
        · cases h; exact id
        · exact not_isLate_of_checkReferences h

namespace Recorded

theorem fresh (h : Recorded u m u') : m.id ∉ u.messages := Dag.fresh_of_insert h.messages

theorem stored (h : Recorded u m u') : m.id ∈ u'.messages :=
  (Dag.mem_insert h.messages).2 (.inl rfl)

theorem reference_mem (h : Recorded u m u') {r : Message.Reference} (hr : r ∈ m.references) :
    r.message ∈ u.messages := by
  obtain ⟨target, ht, _⟩ := h.references r hr
  exact Dag.mem_iff_value?.2 ⟨target, ht⟩

theorem validate_eq (h : Recorded u m u') : u.validate m = .ok () :=
  validate_eq_ok_iff.2 ⟨h.fresh, h.contentId_eq, h.signed, h.references⟩

theorem mem_proofs (h : Recorded u m u') {root : Digest} : root ∈ u'.proofs ↔ root ∈ u.proofs := by
  rcases h.proofs with ⟨_, hp⟩ | ⟨t, t', s, ht, _, hp⟩
  · rw [hp]
  · rw [hp, DigestMap.mem_insert]
    constructor
    · rintro (rfl | hr)
      · exact DigestMap.mem_iff_get?.2 ⟨t, ht⟩
      · exact hr
    · exact .inr

/-- A time proof afterwards is one from before, extended if it is the sender's. -/
theorem get?_proofs (h : Recorded u m u') {root : Digest} {t' : TimeProof}
    (ht' : u'.proofs.get? root = some t') : ∃ t, u.proofs.get? root = some t ∧
      ((root ≠ m.sender ∧ t' = t) ∨ (root = m.sender ∧ ∃ s, t.Extension m t' s)) := by
  rcases h.proofs with ⟨hout, hp⟩ | ⟨t, t₁, s, ht, hext, hp⟩
  · rw [hp] at ht'
    refine ⟨t', ht', .inl ⟨?_, rfl⟩⟩
    rintro rfl
    exact hout (DigestMap.mem_iff_get?.2 ⟨t', ht'⟩)
  · rw [hp, DigestMap.get?_insert] at ht'
    by_cases hr : root = m.sender
    · rw [if_pos hr] at ht'
      cases ht'
      exact ⟨t, hr ▸ ht, .inr ⟨hr, s, hext⟩⟩
    · rw [if_neg hr] at ht'
      exact ⟨t', ht', .inl ⟨hr, rfl⟩⟩

end Recorded

namespace Admitted

variable {b : Population.CheckedBirth} {message : Digest}

theorem parentIds_eq (h : Admitted u b message u') : b.account.parentIds = some b.parents :=
  (Population.verifyBirth_eq_ok_iff.1 h.checked).2.1

theorem parents_mem (h : Admitted u b message u') :
    b.parents.1 ∈ u.population ∧ b.parents.2 ∈ u.population :=
  Population.parents_mem_of_checkBirth (Population.verifyBirth_eq_ok_iff.1 h.checked).1
    h.parentIds_eq

/-- A time proof afterwards is one from before, with the account as a member if it let the birth
pass. -/
theorem get?_proofs (h : Admitted u b message u') {root : Digest} {t' : TimeProof}
    (ht' : u'.proofs.get? root = some t') : ∃ t, u.proofs.get? root = some t ∧
      ((u.verdict t b.parents message ≠ .ok () ∧ t' = t) ∨
        (u.verdict t b.parents message = .ok () ∧
          t.Enrolment b.account.id [b.parents.1, b.parents.2]
            (t.causalTime u.messages message) t')) := by
  cases ht : u.proofs.get? root with
  | none =>
    rw [h.proofs_none root ht] at ht'
    cases ht'
  | some t =>
    refine ⟨t, rfl, ?_⟩
    by_cases hv : u.verdict t b.parents message = .ok ()
    · obtain ⟨t₁, ht₁, henr⟩ := h.proofs_ok root t ht hv
      rw [ht₁] at ht'
      cases ht'
      exact .inr ⟨hv, henr⟩
    · rw [h.proofs_error root t ht hv] at ht'
      cases ht'
      exact .inl ⟨hv, rfl⟩

theorem mem_proofs (h : Admitted u b message u') {root : Digest} :
    root ∈ u'.proofs ↔ root ∈ u.proofs := by
  rw [DigestMap.mem_iff_get?, DigestMap.mem_iff_get?]
  constructor
  · rintro ⟨t', ht'⟩
    obtain ⟨t, ht, _⟩ := h.get?_proofs ht'
    exact ⟨t, ht⟩
  · rintro ⟨t, ht⟩
    by_cases hv : u.verdict t b.parents message = .ok ()
    · obtain ⟨t', ht', _⟩ := h.proofs_ok root t ht hv
      exact ⟨t', ht'⟩
    · exact ⟨t, h.proofs_error root t ht hv⟩

/-- The carried account names its carrier as its birth message. -/
theorem birthMessage_eq (h : Admitted u b message u')
    (hid : ∀ d m, u.messages.value? d = some m → m.id = d) :
    b.account.birthMessage = some message := by
  obtain ⟨m, hm, hp⟩ := h.carried
  rw [Message.birthMessage_of_proposedAccount hp, hid message m hm]

end Admitted

end Universe

end Lineage
