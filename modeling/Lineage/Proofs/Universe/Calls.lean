import Lineage.Proofs.Universe.Links

/-!
# What the calls come to

When the parts of a universe hang together, a call either refuses before it has changed anything,
or goes through with the changes that it has begun. All outcomes of storing a message, judging a
birth and setting up a time proof are listed here with their conditions.
-/
namespace Lineage.Universe

variable {u u' : Universe} {m : Message}

/-- Storing and counting a valid message go through. -/
theorem exists_recorded (h : Linked u) (hv : u.validate m = .ok ()) :
    ∃ stored u₁, u.store m = .ok stored ∧ stored.count m = .ok u₁ ∧ Recorded u m u₁ := by
  obtain ⟨fresh, hid, signed, references⟩ := validate_eq_ok_iff.1 hv
  have known : ∀ p ∈ DigestSet.ofList (m.references.map (·.message)), p ∈ u.messages := by
    intro p hp
    obtain ⟨r, hr, rfl⟩ := List.mem_map.1 (DigestSet.mem_ofList.1 hp)
    obtain ⟨target, ht, _⟩ := references r hr
    exact Dag.mem_iff_value?.2 ⟨target, ht⟩
  obtain ⟨messages, hm⟩ := Dag.exists_insert
    (v := ⟨m.id, m, .ofList (m.references.map (·.message))⟩) fresh known
  refine ⟨{ u with messages }, ?_⟩
  cases ht : u.proofs.get? m.sender with
  | none =>
    refine ⟨{ u with messages }, by rw [store, hm], by simp [count, ht], hid, signed, references,
      hm, .inl ⟨DigestMap.get?_eq_none.1 ht, rfl⟩, rfl, rfl⟩
  | some t =>
    have hout : m.id ∉ t.sequences := fun hin => fresh (h.counted m.sender t m.id ht hin)
    obtain ⟨t', sequence, he⟩ := TimeProof.exists_extend hout
    refine ⟨{ u with messages, proofs := u.proofs.insert m.sender t' }, by rw [store, hm],
      by simp [count, ht, he], hid, signed, references, hm,
      .inr ⟨t, t', sequence, ht, TimeProof.extend_eq_ok_iff.1 he, rfl⟩, rfl, rfl⟩

/-- The time proofs that let a birth pass, with the time of its message in each. -/
theorem mem_passed_verdicts {parents : Digest × Digest} {message root : Digest} {now : Steps} :
    (root, now) ∈ passed (u.verdicts parents message) ↔
      ∃ t, u.proofs.get? root = some t ∧ u.verdict t parents message = .ok () ∧
        now = t.causalTime u.messages message := by
  simp only [passed, verdicts, List.filterMap_map, List.mem_filterMap, Function.comp]
  constructor
  · rintro ⟨⟨r, t⟩, hmem, hsome⟩
    cases hv : u.verdict t parents message with
    | error e =>
      rw [verdict] at hv
      simp only [hv] at hsome
      cases hsome
    | ok _ =>
      rw [verdict] at hv
      simp only [hv] at hsome
      cases hsome
      exact ⟨t, DigestMap.mem_entries_iff.1 hmem, hv, rfl⟩
  · rintro ⟨t, ht, hv, rfl⟩
    refine ⟨(root, t), DigestMap.mem_entries_iff.2 ht, ?_⟩
    rw [verdict] at hv
    simp only [hv]

theorem nodup_passed_verdicts {parents : Digest × Digest} {message : Digest} :
    ((passed (u.verdicts parents message)).map (·.1)).Nodup := by
  have hkeys : u.proofs.keys.Nodup := by
    rw [DigestMap.keys, List.Nodup, List.pairwise_map]
    refine u.proofs.ascending.imp ?_
    intro e f hlt he
    exact Word256.lt_irrefl f.1 (he ▸ hlt)
  have hsub : ∀ l : List (Digest × Steps × Except BirthError Unit),
      ((passed l).map (·.1)).Sublist (l.map (·.1)) := by
    intro l
    induction l with
    | nil => exact .slnil
    | cons x l ih =>
      obtain ⟨root, now, r⟩ := x
      cases r with
      | ok _ => exact ih.cons_cons root
      | error e => exact ih.cons root
  have hmap : (u.verdicts parents message).map (·.1) = u.proofs.keys := by
    simp [verdicts, DigestMap.keys, Function.comp_def]
  exact hkeys.sublist (hmap ▸ hsub (u.verdicts parents message))

/-- What enrolling an account in a list of time proofs makes of a universe: each of them changes in
its own way, and nothing else does. -/
structure Enrolled (u : Universe) (account : Digest) (parents : List Digest)
    (l : List (Digest × Steps)) (u' : Universe) : Prop where
  messages : u'.messages = u.messages
  population : u'.population = u.population
  snapshots : u'.snapshots = u.snapshots
  other : ∀ root, root ∉ l.map (·.1) → u'.proofs.get? root = u.proofs.get? root
  missing : ∀ root, u.proofs.get? root = none → u'.proofs.get? root = none
  listed : ∀ root bornAt t, (root, bornAt) ∈ l → u.proofs.get? root = some t →
    ∃ t', u'.proofs.get? root = some t' ∧ t.Enrolment account parents bornAt t'

section Enrolled

variable {account root : Digest} {parents : List Digest} {bornAt : Steps}
  {l : List (Digest × Steps)} {t t₁ : TimeProof}

theorem Enrolled.skip (h : Enrolled u account parents l u') (ht : u.proofs.get? root = none) :
    Enrolled u account parents ((root, bornAt) :: l) u' := by
  refine ⟨h.messages, h.population, h.snapshots, ?_, h.missing, ?_⟩
  · intro r hr
    exact h.other r fun hl => hr (List.mem_cons_of_mem _ hl)
  · intro r born t hmem hget
    rcases List.mem_cons.1 hmem with hx | hmem
    · cases hx
      rw [ht] at hget
      cases hget
    · exact h.listed r born t hmem hget

/-- The first time proof of a list is not listed again, so it has its final form at once. -/
theorem Enrolled.cons
    (h : Enrolled { u with proofs := u.proofs.insert root t₁ } account parents l u')
    (ht : u.proofs.get? root = some t) (first : t.Enrolment account parents bornAt t₁)
    (out : root ∉ l.map (·.1)) : Enrolled u account parents ((root, bornAt) :: l) u' := by
  have hne : ∀ r, r ≠ root → (u.proofs.insert root t₁).get? r = u.proofs.get? r :=
    fun r hr => DigestMap.get?_insert_of_ne u.proofs t₁ hr
  refine ⟨h.messages, h.population, h.snapshots, ?_, ?_, ?_⟩
  · intro r hr
    rw [List.map_cons, List.mem_cons, not_or] at hr
    rw [h.other r hr.2]
    exact hne r hr.1
  · intro r hr
    refine h.missing r ?_
    rw [hne r (by rintro rfl; rw [ht] at hr; cases hr), hr]
  · intro r born t' hmem hget
    rcases List.mem_cons.1 hmem with hx | hlater
    · cases hx
      rw [ht] at hget
      cases hget
      refine ⟨t₁, ?_, first⟩
      rw [h.other root out]
      exact DigestMap.get?_insert_self u.proofs root t₁
    · refine h.listed r born t' hlater ?_
      have hr : r ≠ root := by
        rintro rfl
        exact out (List.mem_map_of_mem hlater)
      rw [hne r hr, hget]

end Enrolled

theorem exists_enroll (account : Digest) (parents : List Digest) {l : List (Digest × Steps)}
    (distinct : (l.map (·.1)).Nodup) (fresh : ∀ root ∈ l.map (·.1), ∀ t,
      u.proofs.get? root = some t → account ∉ t.memberships) :
    ∃ u', u.enroll account parents l = (u', .ok ()) ∧ Enrolled u account parents l u' := by
  induction l generalizing u with
  | nil => exact ⟨u, rfl, rfl, rfl, rfl, by simp, by simp, by simp⟩
  | cons x l ih =>
    obtain ⟨root, bornAt⟩ := x
    rw [List.map_cons, List.nodup_cons] at distinct
    rw [List.map_cons, List.forall_mem_cons] at fresh
    cases ht : u.proofs.get? root with
    | none =>
      obtain ⟨u', hu', rest⟩ := ih distinct.2 fresh.2
      exact ⟨u', by rw [enroll, ht]; exact hu', rest.skip ht⟩
    | some t =>
      obtain ⟨t₁, h₁⟩ := TimeProof.exists_addMember (fresh.1 t ht) parents bornAt
      have fresh' : ∀ r ∈ l.map (·.1), ∀ t', (u.proofs.insert root t₁).get? r = some t' →
          account ∉ t'.memberships := by
        intro r hr t' ht'
        have hne : r ≠ root := by
          rintro rfl
          exact distinct.1 hr
        rw [DigestMap.get?_insert_of_ne u.proofs t₁ hne] at ht'
        exact fresh.2 r hr t' ht'
      obtain ⟨u', hu', rest⟩ := ih (u := { u with proofs := u.proofs.insert root t₁ })
        distinct.2 fresh'
      refine ⟨u', ?_, rest.cons ht (TimeProof.addMember_eq_ok_iff.1 h₁) distinct.1⟩
      rw [enroll, ht]
      simp only [h₁]
      exact hu'

/-- All that can come of judging the birth of an account in a stored message. -/
inductive JudgeOutcome (u : Universe) (a : Account) (message : Digest) :
    Universe × Except UniverseError Unit → Prop where
  | rejected (reason : BirthError) :
      JudgeOutcome u a message (u, .error (.birthRejected message reason))
  | collided (known : a.id ∈ u.population) :
      JudgeOutcome u a message (u, .error (.population (.alreadyExists a.id)))
  | born {b : Population.CheckedBirth} {u' : Universe} (account_eq : b.account = a)
      (s : Admitted u b message u') : JudgeOutcome u a message (u', .ok ())

section Judge

variable {a : Account} {b : Population.CheckedBirth} {message : Digest}

theorem judge_of_error {reason : BirthError} (hb : u.population.verifyBirth a = .error reason) :
    u.judge a message = (u, .error (.birthRejected message reason)) := by
  rw [judge, hb]

theorem judge_of_none_passed (hb : u.population.verifyBirth a = .ok b)
    (empty : passed (u.verdicts b.parents message) = []) : u.judge a message =
      (u, .error (.birthRejected message (firstFailure (u.verdicts b.parents message)))) := by
  rw [judge, hb]
  simp only [empty]

theorem judge_of_inserted (hb : u.population.verifyBirth a = .ok b)
    (passes : passed (u.verdicts b.parents message) ≠ []) {p : Population} {account : Digest}
    (hp : u.population.insert b = .ok (p, account)) : u.judge a message =
      enroll { u with population := p } account [b.parents.1, b.parents.2]
        (passed (u.verdicts b.parents message)) := by
  rw [judge, hb]
  cases hroots : passed (u.verdicts b.parents message) with
  | nil => exact absurd hroots passes
  | cons root roots => simp only [hroots, hp]

theorem judge_of_known (hb : u.population.verifyBirth a = .ok b)
    (passes : passed (u.verdicts b.parents message) ≠ []) (known : b.account.id ∈ u.population) :
    u.judge a message = (u, .error (.population (.alreadyExists b.account.id))) := by
  rw [judge, hb]
  cases hroots : passed (u.verdicts b.parents message) with
  | nil => exact absurd hroots passes
  | cons root roots => simp only [hroots, Population.insert_of_mem known]

/-- A new account whose birth is in order and passes in some time proof is admitted. -/
theorem exists_admitted (h : Linked u)
    (carried : ∃ m, u.messages.value? message = some m ∧ m.proposedAccount = .ok (some a))
    (unborn : ∀ id b, u.population.account? id = some b → b.birthMessage ≠ some message)
    (hb : u.population.verifyBirth a = .ok b)
    (passes : passed (u.verdicts b.parents message) ≠ []) (new : b.account.id ∉ u.population) :
    ∃ u', u.judge a message = (u', .ok ()) ∧ Admitted u b message u' := by
  obtain ⟨hcheck, hparents, rfl⟩ := Population.verifyBirth_eq_ok_iff.1 hb
  obtain ⟨first, second⟩ := Population.parents_mem_of_checkBirth hcheck hparents
  obtain ⟨p, hp⟩ := Population.exists_insert new first second
  have hadm := (Population.insert_eq_ok_iff.1 hp).2
  have fresh : ∀ root ∈ (passed (u.verdicts b.parents message)).map (·.1), ∀ t,
      u.proofs.get? root = some t → b.account.id ∉ t.memberships :=
    fun root _ t ht hin => new (h.members root t _ ht hin)
  obtain ⟨u', hu', hen⟩ := exists_enroll (u := { u with population := p })
    b.account.id [b.parents.1, b.parents.2] nodup_passed_verdicts fresh
  refine ⟨u', (judge_of_inserted hb passes hp).trans hu', carried, unborn, hb,
    hen.population ▸ hadm, ?_, hen.missing, ?_, ?_, hen.messages, hen.snapshots⟩
  · obtain ⟨⟨root, now⟩, hmem⟩ := List.exists_mem_of_ne_nil _ passes
    obtain ⟨t, ht, hv, _⟩ := mem_passed_verdicts.1 hmem
    exact ⟨root, t, ht, hv⟩
  · intro root t ht hv
    exact hen.listed root _ t (mem_passed_verdicts.2 ⟨t, ht, hv, rfl⟩) ht
  · intro root t ht hv
    rw [hen.other root, ht]
    intro hin
    obtain ⟨⟨r, now⟩, hmem, rfl⟩ := List.mem_map.1 hin
    obtain ⟨t', ht', hv', _⟩ := mem_passed_verdicts.1 hmem
    rw [ht] at ht'
    cases ht'
    exact hv hv'

theorem judge_outcome (h : Linked u)
    (carried : ∃ m, u.messages.value? message = some m ∧ m.proposedAccount = .ok (some a))
    (unborn : ∀ id b, u.population.account? id = some b → b.birthMessage ≠ some message) :
    JudgeOutcome u a message (u.judge a message) := by
  cases hb : u.population.verifyBirth a with
  | error reason =>
    rw [judge_of_error hb]
    exact .rejected reason
  | ok b =>
    obtain ⟨-, -, rfl⟩ := Population.verifyBirth_eq_ok_iff.1 hb
    by_cases empty : passed (u.verdicts b.parents message) = []
    · rw [judge_of_none_passed hb empty]
      exact .rejected _
    · by_cases known : b.account.id ∈ u.population
      · rw [judge_of_known hb empty known]
        exact .collided known
      · obtain ⟨u', hu', s⟩ := exists_admitted h carried unborn hb empty known
        rw [hu']
        exact .born rfl s

end Judge

/-- All that can come of taking in a message. -/
inductive AddOutcome (u : Universe) (m : Message) : Universe × Except UniverseError Unit → Prop where
  | refused {e : UniverseError} (early : ¬ e.IsLate) : AddOutcome u m (u, .error e)
  | text {u₁ : Universe} (s : Recorded u m u₁) (proposal : m.proposedAccount = .ok none) :
      AddOutcome u m (u₁, .ok ())
  | rejected {u₁ : Universe} {a : Account} (s : Recorded u m u₁)
      (proposal : m.proposedAccount = .ok (some a)) (reason : BirthError) :
      AddOutcome u m (u₁, .error (.birthRejected m.id reason))
  | collided {u₁ : Universe} {a : Account} (s : Recorded u m u₁)
      (proposal : m.proposedAccount = .ok (some a)) (known : a.id ∈ u.population) :
      AddOutcome u m (u₁, .error (.population (.alreadyExists a.id)))
  | born {u₁ u' : Universe} {b : Population.CheckedBirth} (s : Recorded u m u₁)
      (proposal : m.proposedAccount = .ok (some b.account)) (s' : Admitted u₁ b m.id u') :
      AddOutcome u m (u', .ok ())

/-- Taking in a message neither sets up a time proof nor gives one up. -/
theorem AddOutcome.mem_proofs {r : Universe × Except UniverseError Unit} (h : AddOutcome u m r)
    {root : Digest} : root ∈ r.1.proofs ↔ root ∈ u.proofs := by
  cases h with
  | refused _ => exact Iff.rfl
  | text s _ => exact s.mem_proofs
  | rejected s _ _ => exact s.mem_proofs
  | collided s _ _ => exact s.mem_proofs
  | born s _ s' => exact s'.mem_proofs.trans s.mem_proofs

/-- Taking in a message stores no other. -/
theorem AddOutcome.mem_messages {r : Universe × Except UniverseError Unit} (h : AddOutcome u m r)
    {d : Digest} (hd : d ∈ r.1.messages) : d = m.id ∨ d ∈ u.messages := by
  cases h with
  | refused _ => exact .inr hd
  | text s _ => exact (Dag.mem_insert s.messages).1 hd
  | rejected s _ _ => exact (Dag.mem_insert s.messages).1 hd
  | collided s _ _ => exact (Dag.mem_insert s.messages).1 hd
  | born s _ s' => exact (Dag.mem_insert s.messages).1 (s'.messages ▸ hd)

/-- Taking in a message leaves the snapshots. -/
theorem AddOutcome.snapshots {r : Universe × Except UniverseError Unit} (h : AddOutcome u m r) :
    r.1.snapshots = u.snapshots := by
  cases h with
  | refused _ => rfl
  | text s _ => exact s.snapshots
  | rejected s _ _ => exact s.snapshots
  | collided s _ _ => exact s.snapshots
  | born s _ s' => exact s'.snapshots.trans s.snapshots

/-- An account that is new after a message has been admitted in it. -/
theorem AddOutcome.exists_admitted {r : Universe × Except UniverseError Unit} {d : Digest}
    (h : AddOutcome u m r) (fresh : d ∉ u.population) (there : d ∈ r.1.population) :
    ∃ u₁ b, Recorded u m u₁ ∧ m.proposedAccount = .ok (some b.account) ∧
      Admitted u₁ b m.id r.1 ∧ b.account.id = d := by
  cases h with
  | refused _ => exact absurd there fresh
  | text s _ => exact absurd (s.population ▸ there) fresh
  | rejected s _ _ => exact absurd (s.population ▸ there) fresh
  | collided s _ _ => exact absurd (s.population ▸ there) fresh
  | @born u₁ _ b s proposal s' =>
    have old : d ∉ u₁.population := s.population ▸ fresh
    have new := (s'.population.mem_iff.1 there).resolve_right old
    exact ⟨u₁, b, s, proposal, s', new.symm⟩

/-- An account that is new after a message is the one that the message proposes. -/
theorem AddOutcome.proposedAccount_eq {r : Universe × Except UniverseError Unit} {d : Digest}
    {a : Account} (h : AddOutcome u m r) (fresh : d ∉ u.population)
    (ha : r.1.population.account? d = some a) : m.proposedAccount = .ok (some a) := by
  obtain ⟨u₁, b, -, proposal, s', rfl⟩ :=
    h.exists_admitted fresh (Population.mem_iff_account?.2 ⟨a, ha⟩)
  rw [s'.population.account?, if_pos rfl] at ha
  cases ha
  exact proposal

/-- The parents of an account that is new after a message were there before. -/
theorem AddOutcome.parents_mem {r : Universe × Except UniverseError Unit} {d : Digest}
    {parents : Digest × Digest} (h : AddOutcome u m r) (fresh : d ∉ u.population)
    (named : r.1.population.HasParents d parents) :
    parents.1 ∈ u.population ∧ parents.2 ∈ u.population := by
  obtain ⟨a, ha, hp⟩ := named
  obtain ⟨u₁, b, s, -, s', rfl⟩ :=
    h.exists_admitted fresh (Population.mem_iff_account?.2 ⟨a, ha⟩)
  rw [s'.population.account?, if_pos rfl] at ha
  cases ha
  rw [s'.parentIds_eq] at hp
  cases hp
  exact s.population ▸ s'.parents_mem

/-- Nobody has been born in a message that has just been stored. -/
theorem Recorded.unborn {u₁ : Universe} (s : Recorded u m u₁) (h : Linked u) (id : Digest)
    (b : Account) (hb : u₁.population.account? id = some b) : b.birthMessage ≠ some m.id := by
  intro hm
  rw [s.population] at hb
  exact s.fresh (h.birthMessage id b m.id hb hm)

theorem Recorded.judge_outcome {u₁ : Universe} {a : Account} (s : Recorded u m u₁) (h : Linked u)
    (proposal : m.proposedAccount = .ok (some a)) :
    JudgeOutcome u₁ a m.id (u₁.judge a m.id) :=
  Universe.judge_outcome (s.linked h) ⟨m, Dag.value?_insert_self s.messages, proposal⟩ (s.unborn h)

/-- A valid message that proposes an account is stored and counted, and the account is judged. -/
theorem exists_judged (h : Linked u) (hv : u.validate m = .ok ()) {a : Account}
    (hp : m.proposedAccount = .ok (some a)) :
    ∃ u₁, Recorded u m u₁ ∧ u.add m = u₁.judge a m.id := by
  obtain ⟨stored, u₁, hs, hc, s⟩ := exists_recorded h hv
  exact ⟨u₁, s, by simp only [add, hv, hp, hs, hc]⟩

theorem add_of_unproposed (h : Linked u) (hv : u.validate m = .ok ())
    (hp : m.proposedAccount = .ok none) : ∃ u', u.add m = (u', .ok ()) ∧ Recorded u m u' := by
  obtain ⟨stored, u', hs, hc, s⟩ := exists_recorded h hv
  exact ⟨u', by simp only [add, hv, hp, hs, hc], s⟩

theorem add_outcome (h : Linked u) (m : Message) : AddOutcome u m (u.add m) := by
  cases hv : u.validate m with
  | error e =>
    rw [add, hv]
    exact .refused (not_isLate_of_validate hv)
  | ok _ =>
    cases hp : m.proposedAccount with
    | error e =>
      rw [add, hv, hp]
      exact .refused id
    | ok proposal =>
      cases proposal with
      | none =>
        obtain ⟨u', hu', s⟩ := add_of_unproposed h hv hp
        rw [hu']
        exact .text s hp
      | some a =>
        obtain ⟨u₁, s, hjudge⟩ := exists_judged h hv hp
        have outcome := s.judge_outcome h hp
        rw [hjudge]
        generalize u₁.judge a m.id = r at outcome
        cases outcome with
        | rejected reason => exact .rejected s hp reason
        | collided known => exact .collided s hp (s.population ▸ known)
        | born account_eq s' => exact .born s (account_eq ▸ hp) s'

/-- A valid message whose proposal can be read is stored, whatever becomes of the proposal. -/
theorem mem_messages_add (h : Linked u) (hv : u.validate m = .ok ()) {proposal : Option Account}
    (hp : m.proposedAccount = .ok proposal) : m.id ∈ (u.add m).1.messages := by
  cases proposal with
  | none =>
    obtain ⟨u', hu', s⟩ := add_of_unproposed h hv hp
    rw [hu']
    exact s.stored
  | some a =>
    obtain ⟨u₁, s, hjudge⟩ := exists_judged h hv hp
    have outcome := s.judge_outcome h hp
    rw [hjudge]
    generalize u₁.judge a m.id = r at outcome
    cases outcome with
    | rejected _ => exact s.stored
    | collided _ => exact s.stored
    | born _ s' => exact s'.messages ▸ s.stored

/-- A valid text is accepted, and nothing else comes of it. -/
theorem add_text (h : Linked u) (text : m.body.kind = .text) (hv : u.validate m = .ok ()) :
    ∃ u', u.add m = (u', .ok ()) ∧ Recorded u m u' :=
  add_of_unproposed h hv (Message.proposedAccount_of_text text)

theorem recorded_of_add_text (h : Linked u) (text : m.body.kind = .text)
    (accepted : (u.add m).2 = .ok ()) : Recorded u m (u.add m).1 := by
  have outcome := add_outcome h m
  have hnone := Message.proposedAccount_of_text text
  generalize u.add m = r at accepted outcome
  cases outcome with
  | refused _ => cases accepted
  | text s _ => exact s
  | rejected _ _ _ => cases accepted
  | collided _ _ _ => cases accepted
  | born _ proposal _ => rw [hnone] at proposal; cases proposal

/-- All that can come of setting up a time proof on the sender of a message. -/
inductive AnchorOutcome (u : Universe) (anchor : Digest) :
    Universe × Except UniverseError Unit → Prop where
  | refused {e : UniverseError} (early : ¬ e.IsLate) : AnchorOutcome u anchor (u, .error e)
  | anchored {root : Digest} {u' : Universe} (s : Anchored u root anchor u') :
      AnchorOutcome u anchor (u', .ok ())

/-- The accounts can be noted for a root that has no time proof. -/
theorem Linked.exists_snapshot (h : Linked u) {root : Digest} (fresh : root ∉ u.proofs) :
    ∃ snapshots, u.snapshots.insert
      ⟨root, .ofList u.population.ids, .ofList u.snapshots.ids⟩ = .ok snapshots := by
  refine Dag.exists_insert (fun known => fresh ((h.snapshots root).1 known)) ?_
  intro d hd
  exact Dag.mem_ids.1 (DigestSet.mem_ofList.1 hd)

/-- Setting up a time proof on the sender of a stored message goes through, if the sender is an
account that has none. -/
theorem exists_anchored (h : Linked u) {anchor : Digest} (hm : u.messages.value? anchor = some m)
    (fresh : m.sender ∉ u.proofs) (resident : m.sender ∈ u.population) :
    ∃ u', u.addTimeProof anchor = (u', .ok ()) ∧ Anchored u m.sender anchor u' := by
  obtain ⟨t, ht, _⟩ := exists_buildTimeProof h.distinct m.sender anchor
  obtain ⟨snapshots, hs⟩ := h.exists_snapshot fresh
  refine ⟨{ u with snapshots, proofs := u.proofs.insert m.sender t }, ?_, ⟨m, hm, rfl⟩, fresh,
    resident, ⟨t, ht, rfl⟩, hs, rfl, rfl⟩
  simp only [addTimeProof, hm, if_neg fresh, if_neg (not_not.2 resident), ht, hs]

theorem addTimeProof_outcome (h : Linked u) (anchor : Digest) :
    AnchorOutcome u anchor (u.addTimeProof anchor) := by
  cases hm : u.messages.value? anchor with
  | none =>
    rw [addTimeProof, hm]
    exact .refused id
  | some m =>
    by_cases there : m.sender ∈ u.proofs
    · simp only [addTimeProof, hm, if_pos there]
      exact .refused id
    · by_cases resident : m.sender ∈ u.population
      · obtain ⟨u', hu', s⟩ := exists_anchored h hm there resident
        rw [hu']
        exact .anchored s
      · simp only [addTimeProof, hm, if_neg there, if_pos resident]
        exact .refused id

/-- Setting up a time proof on an account is setting it up for one of its messages. -/
theorem addTimeProofFor_outcome (h : Linked u) (sender : Digest) :
    ∃ anchor, AnchorOutcome u anchor (u.addTimeProofFor sender) := by
  rw [addTimeProofFor]
  split
  · exact ⟨sender, .refused id⟩
  · split
    · exact ⟨sender, .refused id⟩
    · next m _ => exact ⟨m.id, addTimeProof_outcome h m.id⟩

end Lineage.Universe
