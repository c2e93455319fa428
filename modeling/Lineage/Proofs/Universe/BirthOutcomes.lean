import Lineage.Proofs.Digest.Ascending
import Lineage.Proofs.Population.Reasons
import Lineage.Proofs.Universe.Creation
import Lineage.Proofs.Universe.Membership
import Lineage.Proofs.Universe.Provenance

/-!
# What comes of a birth

The account that a valid message proposes is judged right after the message has been stored and
counted. First the population checks it. Then the law judges it in every time proof, at the time of
the message there, against the population and the members as they were: a new account stands in
nobody's way. It is admitted if it passes somewhere, and joins the time proofs in which it does.
Otherwise the time proof with the least root gives the reason; there is always one.
-/
namespace Lineage.Universe

variable {u u₁ u' : Universe} {m : Message} {a : Account} {parents : Digest × Digest}
  {root message : Digest} {now : Steps} {t : TimeProof}

/-- A universe that has been created has a time proof, and keeps it. -/
theorem Reachable.exists_proof (h : Reachable u) : ∃ root, root ∈ u.proofs := by
  induction h with
  | @create law genesis first u h =>
    obtain ⟨p, u₁, created⟩ := exists_created h
    obtain ⟨t, -, hp⟩ := created.anchored.proofs
    exact ⟨first.sender, hp ▸ DigestMap.mem_insert.2 (.inl rfl)⟩
  | @perform u h c ih =>
    obtain ⟨root, hroot⟩ := ih
    obtain ⟨t, ht⟩ := DigestMap.mem_iff_get?.1 hroot
    obtain ⟨t', ht', -⟩ := (perform_evolves h.linked c).grows.proofs root t ht
    exact ⟨root, DigestMap.mem_iff_get?.2 ⟨t', ht'⟩⟩

/-- What the law says of two parents in the time proof of a root. The time is that of a message
that has just been stored, which makes `u₁` of `u`; the accounts and members are those of `u`. -/
structure Ruling (u u₁ : Universe) (parents : Digest × Digest) (message root : Digest)
    (now : Steps) (verdict : Except BirthError Unit) : Prop where
  time : u₁.causalTime? root message = some now
  verdict : ∃ t, u.proofs.get? root = some t ∧
    Law.checkParents u.population.law u.population parents (t.clockAt now) = verdict

/-- Storing and counting a message changes neither the accounts nor the members, so the verdict
before and after it is the same. -/
theorem Recorded.ruling_iff (s : Recorded u m u₁) {r : Except BirthError Unit} :
    Ruling u u₁ parents m.id root now r ↔ ∃ t, u₁.proofs.get? root = some t ∧
      now = t.causalTime u₁.messages m.id ∧ u₁.verdict t parents m.id = r := by
  constructor
  · rintro ⟨time, t₀, ht₀, hverdict⟩
    obtain ⟨t, ht⟩ := DigestMap.mem_iff_get?.1
      (s.mem_proofs.2 (DigestMap.mem_iff_get?.2 ⟨t₀, ht₀⟩))
    rw [causalTime?_eq ht s.stored] at time
    cases time
    exact ⟨t, ht, rfl, (s.verdict_eq ht₀ ht parents).trans hverdict⟩
  · rintro ⟨t, ht, rfl, hverdict⟩
    obtain ⟨t₀, ht₀, -⟩ := s.get?_proofs ht
    exact ⟨causalTime?_eq ht s.stored, t₀, ht₀, (s.verdict_eq ht₀ ht parents).symm.trans hverdict⟩

/-- When no time proof lets a birth pass, the reason is that of the first one. -/
theorem verdict_of_none_passed {rest : List (Digest × TimeProof)}
    (first : u.proofs.entries = (root, t) :: rest)
    (empty : passed (u.verdicts parents message) = []) :
    u.verdict t parents message = .error (firstFailure (u.verdicts parents message)) := by
  have hverdicts : ∃ l, u.verdicts parents message =
      (root, t.causalTime u.messages message, u.verdict t parents message) :: l :=
    ⟨_, by rw [verdicts, first]; rfl⟩
  obtain ⟨l, hl⟩ := hverdicts
  rw [hl] at empty ⊢
  cases hv : u.verdict t parents message with
  | ok _ => rw [hv] at empty; cases empty
  | error reason => rfl

/-- What a birth changes after its message has been stored, which makes `u₁` of `u`: the account is
admitted, and joins just those time proofs that let it pass, at the time of the message there. -/
structure Born (u u₁ : Universe) (m : Message) (b : Population.CheckedBirth) (u' : Universe) :
    Prop where
  messages : u'.messages = u₁.messages
  snapshots : u'.snapshots = u₁.snapshots
  population : Population.Admission u.population b u'.population
  roots : ∀ root, root ∈ u'.proofs ↔ root ∈ u₁.proofs
  enrolled : ∀ root now t, Ruling u u₁ b.parents m.id root now (.ok ()) →
    u₁.proofs.get? root = some t → ∃ t', u'.proofs.get? root = some t' ∧
      t.Enrolment b.account.id [b.parents.1, b.parents.2] now t'
  others : ∀ root t, (∀ now, ¬ Ruling u u₁ b.parents m.id root now (.ok ())) →
    u₁.proofs.get? root = some t → u'.proofs.get? root = some t
  member? : ∀ root t', u'.proofs.get? root = some t' → ∀ now,
    t'.member? b.account.id = some ⟨now⟩ ↔ Ruling u u₁ b.parents m.id root now (.ok ())

/-- All that can come of a birth in a stored message. No two cases have conditions that hold
together. -/
inductive BirthOutcome (u u₁ : Universe) (m : Message) (b : Population.CheckedBirth) :
    Universe × Except UniverseError Unit → Prop where
  | unfit {reason : BirthError} (check : u.population.checkBirth b.account = .error reason) :
      BirthOutcome u u₁ m b (u₁, .error (.birthRejected m.id reason))
  | refused (check : u.population.checkBirth b.account = .ok ())
      (nowhere : ∀ root now, ¬ Ruling u u₁ b.parents m.id root now (.ok ()))
      {least : Digest} (first : ∀ root ∈ u.proofs, root = least ∨ least < root)
      {now : Steps} {reason : BirthError}
      (ruling : Ruling u u₁ b.parents m.id least now (.error reason)) :
      BirthOutcome u u₁ m b (u₁, .error (.birthRejected m.id reason))
  | collided (check : u.population.checkBirth b.account = .ok ())
      (somewhere : ∃ root now, Ruling u u₁ b.parents m.id root now (.ok ()))
      (known : b.account.id ∈ u.population) :
      BirthOutcome u u₁ m b (u₁, .error (.population (.alreadyExists b.account.id)))
  | born (check : u.population.checkBirth b.account = .ok ())
      (somewhere : ∃ root now, Ruling u u₁ b.parents m.id root now (.ok ()))
      (fresh : b.account.id ∉ u.population) {u' : Universe} (born : Born u u₁ m b u') :
      BirthOutcome u u₁ m b (u', .ok ())

variable {b : Population.CheckedBirth}

theorem Recorded.passed_eq_nil_iff (s : Recorded u m u₁) :
    passed (u₁.verdicts parents m.id) = [] ↔
      ∀ root now, ¬ Ruling u u₁ parents m.id root now (.ok ()) := by
  rw [List.eq_nil_iff_forall_not_mem, Prod.forall]
  refine forall_congr' fun root => forall_congr' fun now => not_congr ?_
  rw [mem_passed_verdicts, s.ruling_iff]
  constructor
  · rintro ⟨t, ht, hv, hnow⟩
    exact ⟨t, ht, hnow, hv⟩
  · rintro ⟨t, ht, hnow, hv⟩
    exact ⟨t, ht, hv, hnow⟩

theorem Recorded.born (s : Recorded u m u₁) (h : Linked u) (s' : Admitted u₁ b m.id u') :
    Born u u₁ m b u' := by
  have fresh : b.account.id ∉ u₁.population := s'.population.fresh
  have stranger {root : Digest} {t : TimeProof} (ht : u₁.proofs.get? root = some t) :
      t.member? b.account.id = none :=
    Dag.value?_eq_none.2 fun hin => fresh ((s.linked h).members root t _ ht hin)
  refine ⟨s'.messages, s'.snapshots, s.population ▸ s'.population, fun _ => s'.mem_proofs,
    ?_, ?_, ?_⟩
  · intro root now t ruling ht
    obtain ⟨t₁, ht₁, rfl, hv⟩ := s.ruling_iff.1 ruling
    rw [ht] at ht₁
    cases ht₁
    exact s'.proofs_ok root t ht hv
  · intro root t fails ht
    exact s'.proofs_error root t ht fun hv => fails _ (s.ruling_iff.2 ⟨t, ht, rfl, hv⟩)
  · intro root t' ht' now
    rw [s.ruling_iff]
    obtain ⟨t, ht, ⟨hv, rfl⟩ | ⟨hv, e⟩⟩ := s'.get?_proofs ht'
    · rw [stranger ht]
      constructor
      · intro hm; cases hm
      · rintro ⟨t, ht₁, -, passes⟩
        rw [ht] at ht₁
        cases ht₁
        exact absurd passes hv
    · rw [e.member?, if_pos rfl, Option.some.injEq, Membership.mk.injEq]
      constructor
      · rintro rfl
        exact ⟨t, ht, rfl, hv⟩
      · rintro ⟨t, ht₁, rfl, -⟩
        rw [ht] at ht₁
        cases ht₁
        rfl

/-- Judging a birth comes to one of the four cases. -/
theorem Recorded.birthOutcome (s : Recorded u m u₁) (h : Linked u) (proof : root ∈ u.proofs)
    (proposal : m.proposedAccount = .ok (some b.account))
    (parents : b.account.parentIds = some b.parents) :
    BirthOutcome u u₁ m b (u₁.judge b.account m.id) := by
  cases check : u.population.checkBirth b.account with
  | error reason =>
    rw [judge_of_error (Population.verifyBirth_of_error (s.population ▸ check))]
    exact .unfit check
  | ok _ =>
    have hb : u₁.population.verifyBirth b.account = .ok b :=
      Population.verifyBirth_eq_ok_iff.2 ⟨s.population ▸ check, parents, rfl⟩
    by_cases empty : passed (u₁.verdicts b.parents m.id) = []
    · obtain ⟨least, t, rest, hentries, ht, first⟩ := DigestMap.exists_least (s.mem_proofs.2 proof)
      have hv := verdict_of_none_passed hentries empty
      rw [judge_of_none_passed hb empty]
      exact .refused check (s.passed_eq_nil_iff.1 empty)
        (fun root hroot => first root (s.mem_proofs.2 hroot)) (s.ruling_iff.2 ⟨t, ht, rfl, hv⟩)
    · have somewhere : ∃ root now, Ruling u u₁ b.parents m.id root now (.ok ()) := by
        simpa [s.passed_eq_nil_iff] using empty
      by_cases known : b.account.id ∈ u.population
      · rw [judge_of_known hb empty (s.population ▸ known)]
        exact .collided check somewhere known
      · obtain ⟨u', hu', s'⟩ := exists_admitted (s.linked h)
          ⟨m, Dag.value?_insert_self s.messages, proposal⟩ (s.unborn h) hb empty
          (s.population ▸ known)
        rw [hu']
        exact .born check somewhere known (s.born h s')

/-- No birth is rejected for its form once it is judged. -/
theorem BirthOutcome.not_isFormal {r : Universe × Except UniverseError Unit}
    (o : BirthOutcome u u₁ m b r) {approvals : Approval × Approval}
    (ha : b.account.parents = some approvals) {d : Digest} {reason : BirthError}
    (he : r.2 = .error (.birthRejected d reason)) : ¬ reason.IsFormal := by
  cases o with
  | unfit check => cases he; exact Population.not_isFormal_of_checkBirth ha check
  | refused _ _ _ ruling =>
    cases he
    obtain ⟨-, t, -, hverdict⟩ := ruling
    exact Law.not_isFormal_of_checkParents hverdict
  | collided _ _ _ => cases he
  | born _ _ _ _ => cases he

/-- A valid message that proposes an account is stored and counted, and its birth is judged. -/
theorem Reachable.exists_birthOutcome (h : Reachable u) (hv : u.validate m = .ok ())
    (proposal : m.proposedAccount = .ok (some a)) : ∃ parents u₁, a.parentIds = some parents ∧
      Recorded u m u₁ ∧ BirthOutcome u u₁ m ⟨a, parents⟩ (u.add m) := by
  obtain ⟨root, proof⟩ := h.exists_proof
  obtain ⟨approvals, ha⟩ := Message.exists_parents_of_proposedAccount proposal
  obtain ⟨u₁, s, hjudge⟩ := exists_judged h.linked hv proposal
  have parents : a.parentIds = some (approvals.1.parent, approvals.2.parent) := by
    rw [Account.parentIds, ha, Option.map_some]
  refine ⟨_, u₁, parents, s, ?_⟩
  rw [hjudge]
  exact s.birthOutcome h.linked proof proposal parents

/-- The messages that a time proof has counted stay the same at a birth. -/
theorem Born.exists_sameCount (h : Born u u₁ m b u') (ht : u₁.proofs.get? root = some t) :
    ∃ t', u'.proofs.get? root = some t' ∧ t.SameCount t' := by
  by_cases passes : ∃ now, Ruling u u₁ b.parents m.id root now (.ok ())
  · obtain ⟨now, ruling⟩ := passes
    obtain ⟨t', ht', e⟩ := h.enrolled root now t ruling ht
    exact ⟨t', ht', e.sameCount⟩
  · exact ⟨t, h.others root t (not_exists.1 passes) ht, rfl, rfl⟩

/-- The time of a message stays what it was when the birth was judged. -/
theorem Born.causalTime? (h : Born u u₁ m b u')
    (hnow : u₁.causalTime? root message = some now) : u'.causalTime? root message = some now := by
  obtain ⟨t, ht, htime⟩ := Option.bind_eq_some_iff.1 hnow
  split at htime
  · next stored =>
    cases htime
    obtain ⟨t', ht', same⟩ := h.exists_sameCount ht
    rw [causalTime?_eq ht' (h.messages ▸ stored), h.messages, same.causalTime]
  · cases htime

theorem BirthOutcome.causalTime? {r : Universe × Except UniverseError Unit}
    (o : BirthOutcome u u₁ m b r) (hnow : u₁.causalTime? root message = some now) :
    r.1.causalTime? root message = some now := by
  cases o with
  | unfit _ => exact hnow
  | refused _ _ _ _ => exact hnow
  | collided _ _ _ => exact hnow
  | born _ _ _ born => exact born.causalTime? hnow

/-- A birth with two approvals in a valid message comes to one of the four outcomes once the message
is stored, and the times that the message has then stay. No birth is ever rejected for its form. -/
theorem birth_outcome (h : Reachable u) :
    (∀ m c, u.validate m = .ok () → m.body = .birth c → c.approvals.length = 2 →
      ∃ a parents u₁, c.toAccount m.id = .ok a ∧ a.parentIds = some parents ∧ Recorded u m u₁ ∧
        (∀ root ∈ u.proofs, ∃ now, u₁.causalTime? root m.id = some now ∧
          (u.add m).1.causalTime? root m.id = some now) ∧
        BirthOutcome u u₁ m ⟨a, parents⟩ (u.add m)) ∧
    ∀ m d reason, (u.add m).2 = .error (.birthRejected d reason) →
      reason ≠ .missingParents ∧ ∀ n, reason ≠ .parentCount n := by
  refine ⟨?_, ?_⟩
  · intro m c hv body two
    obtain ⟨a, hc⟩ := Certificate.exists_toAccount two m.id
    obtain ⟨parents, u₁, hparents, s, o⟩ :=
      h.exists_birthOutcome hv (Message.proposedAccount_eq_ok_iff.2 ⟨c, body, hc⟩)
    refine ⟨a, parents, u₁, hc, hparents, s, ?_, o⟩
    intro root proof
    obtain ⟨t, ht⟩ := DigestMap.mem_iff_get?.1 (s.mem_proofs.2 proof)
    have time := causalTime?_eq ht s.stored
    exact ⟨_, time, o.causalTime? time⟩
  · intro m d reason he
    obtain ⟨s, a, proposal⟩ := (add_outcome h.linked m).of_rejected he
    obtain ⟨approvals, ha⟩ := Message.exists_parents_of_proposedAccount proposal
    obtain ⟨parents, u₁, -, -, o⟩ := h.exists_birthOutcome s.validate_eq proposal
    have notFormal := o.not_isFormal ha he
    constructor
    · rintro rfl
      exact notFormal trivial
    · rintro n rfl
      exact notFormal trivial

/-- Abel's birth passes in the time proof of Adam at its second step. -/
theorem birth_outcome_abel : ∃ u u₁ b, create Sample.law Sample.genesis Sample.first = .ok u ∧
    Recorded u Sample.birth u₁ ∧ Born u u₁ Sample.birth b (u.add Sample.birth).1 ∧
    Ruling u u₁ b.parents Sample.birth.id Sample.adamId 2 (.ok ()) := by
  obtain ⟨u, hu, -, told⟩ := Sample.exists_founded
  have before := Sample.abelId_not_mem hu told
  have after := Sample.abelId_mem hu told
  obtain ⟨t, s, ht, hm, -⟩ := Sample.found_of_isComplete told
  have valid : u.validate Sample.birth = .ok () := by
    cases hv : u.validate Sample.birth with
    | ok _ => rfl
    | error e =>
      rw [add, hv] at after
      exact absurd after before
  obtain ⟨a, parents, u₁, -, -, recorded, -, o⟩ :=
    (birth_outcome (.create hu)).1 Sample.birth _ valid rfl rfl
  have stays : Sample.abelId ∉ u₁.population := recorded.population ▸ before
  refine ⟨u, u₁, ⟨a, parents⟩, hu, recorded, ?_⟩
  generalize u.add Sample.birth = r at after ht o
  cases o with
  | unfit _ => exact absurd after stays
  | refused _ _ _ _ => exact absurd after stays
  | collided _ _ _ => exact absurd after stays
  | born _ _ _ born =>
    have self : Sample.abelId = a.id :=
      (born.population.mem_iff.1 after).resolve_right before
    exact ⟨born, (born.member? _ t ht 2).1 (self ▸ hm)⟩

end Lineage.Universe
