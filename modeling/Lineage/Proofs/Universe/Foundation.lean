import Lineage.Proofs.Law.Parameters
import Lineage.Proofs.Universe.Membership
import Lineage.Proofs.Universe.Refusals

/-!
# When a universe can be created

A creation asks for parameters that are accepted, two genesis accounts with different names, and a
first message by one of them. There is nothing yet that this message could refer to, so it must not
refer to anything. These conditions are checked in a fixed order, and the first that fails is
reported. When all of them hold, the universe afterwards is known in every part.
-/
namespace Lineage

variable {law : Law.Parameters} {g : GenesisPair} {p : Population} {a : Account} {d : Digest}

namespace Population

/-- A population can be founded. -/
structure Foundable (law : Law.Parameters) (g : GenesisPair) : Prop where
  accepted : law.Accepted
  ids_ne : g.first.id ≠ g.second.id

/-- Nothing but a taken name stands against an account without parents. -/
theorem exists_enter {residents : Dag Resident} (fresh : a.id ∉ residents) (lifecycle : Steps) :
    ∃ residents', enter residents a lifecycle [] = .ok residents' ∧
      ∀ d, d ∈ residents' ↔ d = a.id ∨ d ∈ residents := by
  obtain ⟨residents', entered⟩ :=
    Dag.exists_insert (v := ⟨a.id, ⟨a, lifecycle⟩, .ofList []⟩) fresh nofun
  exact ⟨residents', enter_eq_ok_iff.2 entered, fun _ => Dag.mem_insert entered⟩

theorem exists_ofGenesis (h : Foundable law g) : ∃ p, ofGenesis g law = .ok p := by
  obtain ⟨one, first, there⟩ := exists_enter (a := g.first) Dag.not_mem_empty law.genesisLifecycle
  have fresh : g.second.id ∉ one := by
    simp [there, h.ids_ne.symm]
  obtain ⟨two, second, -⟩ := exists_enter fresh law.genesisLifecycle
  refine ⟨⟨two, g.ids, law⟩, ?_⟩
  simp only [ofGenesis, h.accepted.validate_eq, first, second, bind, Except.bind, pure, Except.pure]

/-- Of two accounts with one name the second one is refused. -/
theorem ofGenesis_of_twins (accepted : law.Accepted) (same : g.first.id = g.second.id) :
    ofGenesis g law = .error (.graph (.duplicate g.second.id)) := by
  obtain ⟨one, first, there⟩ := exists_enter (a := g.first) Dag.not_mem_empty law.genesisLifecycle
  have known : g.second.id ∈ one := (there _).2 (.inl same.symm)
  have second : enter one g.second law.genesisLifecycle [] =
      .error (.graph (.duplicate g.second.id)) := by
    rw [enter, Dag.insert, dif_pos known]
  simp only [ofGenesis, accepted.validate_eq, first, second, bind, Except.bind]

/-- At first the accounts are the two genesis accounts. -/
theorem Founding.account?_eq_some_iff (h : Founding g law p) :
    p.account? d = some a ↔ a ∈ g.accounts ∧ a.id = d := by
  rw [Population.account?_eq_some_iff, h.residents, GenesisPair.accounts, List.mem_pair]
  simp only [List.mem_cons, List.not_mem_nil, or_false, exists_eq_or_imp, exists_eq_left]
  constructor
  · rintro (⟨hid, rfl⟩ | ⟨hid, rfl⟩)
    · exact ⟨.inr rfl, hid⟩
    · exact ⟨.inl rfl, hid⟩
  · rintro ⟨rfl | rfl, hid⟩
    · exact .inr ⟨hid, rfl⟩
    · exact .inl ⟨hid, rfl⟩

theorem Founding.vertices_eq (h : Founding g law p) : p.residents.vertices =
    g.accounts.map fun a => ⟨a.id, ⟨a, law.genesisLifecycle⟩, ∅⟩ := by
  rw [Dag.vertices, h.residents]
  rfl

theorem Founding.ids_eq (h : Founding g law p) : p.ids = g.accounts.map (·.id) := by
  rw [ids, Dag.ids, h.vertices_eq]
  rfl

end Population

/-- The first message that is counted has the number one, and nothing below it. -/
theorem TimeProof.Extension.of_start {root anchor : Digest} {m : Message} {t : TimeProof}
    {sequence : Steps} (e : (start root anchor).Extension m t sequence) :
    t.sequences.vertices = [⟨m.id, 1, ∅⟩] ∧ t.maxSequence = 1 := by
  have none : (start root anchor).countedReferences m = [] :=
    List.filter_eq_nil_iff.2 fun _ _ known => Dag.not_mem_empty (of_decide_eq_true known)
  have one : sequence = 1 := by
    rw [e.sequence_eq, none]
    rfl
  have counted := e.sequences
  rw [none, one] at counted
  refine ⟨Dag.vertices_insert counted, ?_⟩
  rw [e.maxSequence, one]
  rfl

namespace Universe

open Population (Foundable Founding)

/-- Accounts that were not born become members at time zero, below nobody. -/
theorem vertices_enrollAll {messages : Dag Message} {t t' : TimeProof} {vs : List (Vertex Resident)}
    (unborn : ∀ v ∈ vs, v.value.account.hasBirth = false) (h : enrollAll messages t vs = .ok t') :
    t'.memberships.vertices = t.memberships.vertices ++ vs.map fun v => ⟨v.id, ⟨0⟩, ∅⟩ := by
  induction vs generalizing t with
  | nil =>
    cases h
    rw [List.map_nil, List.append_nil]
  | cons v vs ih =>
    obtain ⟨unborn, rest⟩ := List.forall_mem_cons.1 unborn
    obtain ⟨noParents, noMessage⟩ := Account.unborn_iff.1 unborn
    simp only [enrollAll, Account.parentList, noParents, TimeProof.birthTime, noMessage] at h
    split at h
    · next t₁ h₁ =>
      have e := TimeProof.addMember_eq_ok_iff.1 h₁
      rw [ih rest h, Dag.vertices_insert e.memberships, List.append_assoc]
      rfl
    · cases h

/-- All that a creation asks for. -/
structure Creatable (law : Law.Parameters) (g : GenesisPair) (first : Message) : Prop
    extends Foundable law g where
  signed : ∃ a ∈ g.accounts, a.id = first.sender ∧ SignedBy first a.identity.key
  text : first.body.kind = .text
  contentId_eq : first.contentId = first.id
  references : first.references = []

/-- A first message in the name of a genesis account. -/
structure Founder (law : Law.Parameters) (g : GenesisPair) (first : Message) (a : Account) : Prop
    extends Foundable law g where
  founder : a ∈ g.accounts
  sender : a.id = first.sender

/-- A first message in the name of a genesis account that is a text. -/
structure Texted (law : Law.Parameters) (g : GenesisPair) (first : Message) (a : Account) : Prop
    extends Founder law g first a where
  text : first.body.kind = .text

/-- A first text in the name of a genesis account that has the id of its content. -/
structure Opening (law : Law.Parameters) (g : GenesisPair) (first : Message) (a : Account) : Prop
    extends Texted law g first a where
  contentId_eq : first.contentId = first.id

/-- What is wrong with a creation first, in the order of the checks: each case says that all earlier
checks pass. -/
inductive CreationFault (law : Law.Parameters) (g : GenesisPair) (first : Message) :
    UniverseError → Prop where
  | law {e : Law.ParameterError} (refused : law.Refused e) : CreationFault law g first (.law e)
  | twins (accepted : law.Accepted) (same : g.first.id = g.second.id) :
      CreationFault law g first (.population (.graph (.duplicate g.second.id)))
  | stranger (foundable : Foundable law g) (unknown : ∀ a ∈ g.accounts, a.id ≠ first.sender) :
      CreationFault law g first (.invalidSender first.sender)
  | birth {a : Account} (founder : Founder law g first a) (other : first.body.kind ≠ .text) :
      CreationFault law g first (.malformedMessage first.id)
  | malformed {a : Account} (texted : Texted law g first a) (other : first.contentId ≠ first.id) :
      CreationFault law g first (.malformedMessage first.id)
  | unfit {a : Account} (opening : Opening law g first a) {reason : KeyError}
      (misfit : a.identity.key.Misfit first.signature reason) :
      CreationFault law g first (.faulty (.key reason))
  | forged {a : Account} (opening : Opening law g first a)
      (fits : a.identity.key.Fits first.signature)
      (refuted : a.identity.key.verify first.signedDigest first.signature = .ok false) :
      CreationFault law g first (.invalidSignature first.id)
  | reference {a : Account} (opening : Opening law g first a)
      (signed : SignedBy first a.identity.key) {r : Message.Reference}
      {rest : List Message.Reference} (references : first.references = r :: rest) :
      CreationFault law g first (.unknownReference first.id r.message)

/-- The time proof that a creation sets up. -/
structure Opened (g : GenesisPair) (first : Message) (t : TimeProof) : Prop where
  root_eq : t.root = first.sender
  anchor_eq : t.anchor = first.id
  maxSequence : t.maxSequence = 1
  sequences : t.sequences.vertices = [⟨first.id, 1, ∅⟩]
  memberships : t.memberships.vertices = g.accounts.map fun a => ⟨a.id, ⟨0⟩, ∅⟩

/-- The universe after a creation. Both accounts are in its only snapshot, and no others. -/
structure Outset (law : Law.Parameters) (g : GenesisPair) (first : Message) (u : Universe) :
    Prop where
  messages : u.messages.vertices = [⟨first.id, first, ∅⟩]
  residents : u.population.residents.vertices =
    g.accounts.map fun a => ⟨a.id, ⟨a, law.genesisLifecycle⟩, ∅⟩
  genesis_eq : u.population.genesis = g.ids
  law_eq : u.population.law = law
  proofs : ∃ t, u.proofs.entries = [(first.sender, t)] ∧ Opened g first t
  snapshots : ∃ s, u.snapshots.vertices = [⟨first.sender, s, ∅⟩] ∧
    ∀ d, d ∈ s ↔ d = g.first.id ∨ d = g.second.id

variable {first : Message} {u u₁ : Universe} {e : UniverseError}

theorem Founder.known (f : Founder law g first a) (h : Founding g law p) :
    ¬ (first.sender ≠ p.genesis.1 ∧ first.sender ≠ p.genesis.2) := by
  rw [h.genesis_eq, ← f.sender]
  rcases List.mem_pair.1 f.founder with rfl | rfl
  · exact fun ne => ne.1 rfl
  · exact fun ne => ne.2 rfl

/-- After the first text has been looked at, it is taken in like any other message. -/
theorem Texted.create_eq (t : Texted law g first a) (founded : Population.ofGenesis g law = .ok p) :
    create law g first =
      match (seed p).add first with
      | (_, .error e) => .error e
      | (u, .ok ()) =>
        match u.addTimeProof first.id with
        | (_, .error e) => .error e
        | (u, .ok ()) => .ok u := by
  have known := t.known (Population.founding_of_ofGenesis founded)
  simp only [create, t.accepted.validate_eq, founded, if_neg known, if_neg (not_not.2 t.text)]
  rfl

theorem Opening.sent (o : Opening law g first a) (h : Founding g law p) :
    Sent (seed p) first a where
  fresh := Dag.not_mem_empty
  contentId_eq := o.contentId_eq
  sender := h.account?_eq_some_iff.2 ⟨o.founder, o.sender⟩

/-- What is wrong with the first message for the universe without messages is the error of the
creation. -/
theorem Texted.create_of_fault (t : Texted law g first a)
    (fault : ∀ p, Founding g law p → Fault (seed p) first e) : create law g first = .error e := by
  obtain ⟨p, founded⟩ := Population.exists_ofGenesis t.toFoundable
  rw [t.create_eq founded, (fault p (Population.founding_of_ofGenesis founded)).add_eq]

theorem CreationFault.create_eq (f : CreationFault law g first e) :
    create law g first = .error e := by
  cases f with
  | law refused => simp only [create, refused.validate_eq]
  | twins accepted same =>
    simp only [create, accepted.validate_eq, Population.ofGenesis_of_twins accepted same]
  | stranger foundable unknown =>
    obtain ⟨p, founded⟩ := Population.exists_ofGenesis foundable
    have genesis := (Population.founding_of_ofGenesis founded).genesis_eq
    have neither : first.sender ≠ p.genesis.1 ∧ first.sender ≠ p.genesis.2 := by
      rw [genesis]
      exact ⟨(unknown _ (List.mem_pair.2 (.inl rfl))).symm,
        (unknown _ (List.mem_pair.2 (.inr rfl))).symm⟩
    simp only [create, foundable.accepted.validate_eq, founded, if_pos neither]
  | birth founder other =>
    obtain ⟨p, founded⟩ := Population.exists_ofGenesis founder.toFoundable
    have known := founder.known (Population.founding_of_ofGenesis founded)
    simp only [create, founder.accepted.validate_eq, founded, if_neg known, if_pos other]
  | malformed texted other =>
    exact texted.create_of_fault fun _ _ => .malformed Dag.not_mem_empty other
  | unfit opening misfit =>
    have refused := misfit.verify_eq first.signedDigest
    exact opening.create_of_fault fun _ h => .unfit (opening.sent h) misfit.not_fits refused
  | forged opening fits refuted =>
    exact opening.create_of_fault fun _ h => .forged (opening.sent h) fits refuted
  | @reference _ opening signed r rest references =>
    have split : first.references = [] ++ r :: rest := references
    exact opening.create_of_fault fun _ h =>
      .reference (opening.sent h) signed split nofun (.unknown Dag.not_mem_empty)

theorem Creatable.exists_create (c : Creatable law g first) :
    ∃ u, create law g first = .ok u := by
  obtain ⟨a, founder, sender, signed⟩ := c.signed
  have opening : Opening law g first a :=
    ⟨⟨⟨c.toFoundable, founder, sender⟩, c.text⟩, c.contentId_eq⟩
  obtain ⟨p, founded⟩ := Population.exists_ofGenesis c.toFoundable
  have founding := Population.founding_of_ofGenesis founded
  have start := linked_seed founding
  have sent := opening.sent founding
  have valid : (seed p).validate first = .ok () := by
    rw [sent.validate_eq signed, c.references]
    rfl
  obtain ⟨u₁, added, recorded⟩ := add_text start c.text valid
  have resident : first.sender ∈ u₁.population :=
    recorded.population ▸ Population.mem_iff_account?.2 ⟨a, sent.sender⟩
  have fresh : first.sender ∉ u₁.proofs := fun there => nomatch recorded.mem_proofs.1 there
  have stored : u₁.messages.value? first.id = some first :=
    Dag.value?_insert_self recorded.messages
  obtain ⟨u, anchored, -⟩ := exists_anchored (recorded.linked start) stored fresh resident
  exact ⟨u, by simp only [opening.create_eq founded, added, anchored]⟩

/-- Something is wrong first with all that a creation does not accept. -/
theorem creatable_or_fault (law : Law.Parameters) (g : GenesisPair) (first : Message) :
    Creatable law g first ∨ ∃ e, CreationFault law g first e := by
  rcases law.accepted_or_refused with accepted | ⟨e, refused⟩
  swap
  · exact .inr ⟨_, .law refused⟩
  by_cases same : g.first.id = g.second.id
  · exact .inr ⟨_, .twins accepted same⟩
  have foundable : Foundable law g := ⟨accepted, same⟩
  by_cases known : ∃ a ∈ g.accounts, a.id = first.sender
  swap
  · exact .inr ⟨_, .stranger foundable fun a founder sender => known ⟨a, founder, sender⟩⟩
  obtain ⟨a, member, sender⟩ := known
  have founder : Founder law g first a := ⟨foundable, member, sender⟩
  by_cases text : first.body.kind = .text
  swap
  · exact .inr ⟨_, .birth founder text⟩
  by_cases contentId_eq : first.contentId = first.id
  swap
  · exact .inr ⟨_, .malformed ⟨founder, text⟩ contentId_eq⟩
  have opening : Opening law g first a := ⟨⟨founder, text⟩, contentId_eq⟩
  cases verdict : a.identity.key.verify first.signedDigest first.signature with
  | error reason => exact .inr ⟨_, .unfit opening (PublicKey.verify_eq_error_iff.1 verdict)⟩
  | ok good =>
    have fits := PublicKey.fits_of_verify_eq_ok verdict
    cases good with
    | false => exact .inr ⟨_, .forged opening fits verdict⟩
    | true =>
      have signed : SignedBy first a.identity.key := ⟨fits, verdict⟩
      cases references : first.references with
      | nil => exact .inl ⟨foundable, ⟨a, member, sender, signed⟩, text, contentId_eq, references⟩
      | cons r rest => exact .inr ⟨_, .reference opening signed references⟩

/-- A time proof that is set up for the only message has counted just that. -/
theorem Built.count_of_singleton {anchor : Digest} {t : TimeProof}
    (b : Built u first.sender anchor t) (only : u.messageList = [first]) :
    t.sequences.vertices = [⟨first.id, 1, ∅⟩] ∧ t.maxSequence = 1 := by
  obtain ⟨t₀, sequences, counts, same⟩ := b.counted
  have own : u.messageList.filter (·.sender = first.sender) = [first] := by
    rw [only]
    simp
  rw [own, TimeProof.countAll_cons_eq_ok_iff] at counts
  obtain ⟨t₁, sequence, rest, counted, last, -⟩ := counts
  cases last
  rw [same.sequences, same.maxSequence]
  exact (TimeProof.extend_eq_ok_iff.1 counted).of_start

theorem memberships_of_buildTimeProof {root anchor : Digest} {lifecycle : Steps} {t : TimeProof}
    (residents : u.population.residents.vertices = g.accounts.map fun a => ⟨a.id, ⟨a, lifecycle⟩, ∅⟩)
    (h : u.buildTimeProof root anchor = .ok t) :
    t.memberships.vertices = g.accounts.map fun a => ⟨a.id, ⟨0⟩, ∅⟩ := by
  have unborn : ∀ v ∈ u.population.residents.vertices, v.value.account.hasBirth = false := by
    intro v hv
    rw [residents] at hv
    rcases List.mem_pair.1 hv with rfl | rfl
    · exact g.unborn_first
    · exact g.unborn_second
  cases replayed : replay (.start root anchor) u.messageList with
  | error e =>
    simp only [buildTimeProof, replayed, bind, Except.bind] at h
    cases h
  | ok t₀ =>
    rw [buildTimeProof_of_replay replayed] at h
    rw [vertices_enrollAll unborn h, memberships_replay replayed, residents]
    rfl

namespace Created

/-- There has been nothing to refer to. -/
theorem references_eq (c : Created law g first p u₁ u) : first.references = [] := by
  refine List.eq_nil_iff_forall_not_mem.2 fun r hr => ?_
  obtain ⟨target, stored, -⟩ := c.recorded.references r hr
  cases stored

theorem proofs_eq (c : Created law g first p u₁ u) : u₁.proofs = ∅ := by
  rcases c.recorded.proofs with ⟨-, same⟩ | ⟨t, -, -, there, -, -⟩
  · exact same
  · cases there

theorem messageList_eq (c : Created law g first p u₁ u) : u₁.messageList = [first] := by
  rw [messageList, Dag.vertices_insert c.recorded.messages]
  rfl

theorem vertices_eq (c : Created law g first p u₁ u) : u₁.population.residents.vertices =
    g.accounts.map fun a => ⟨a.id, ⟨a, law.genesisLifecycle⟩, ∅⟩ := by
  rw [c.recorded.population, seed_population, c.founding.vertices_eq]

theorem opened (c : Created law g first p u₁ u) :
    ∃ t, u.proofs.entries = [(first.sender, t)] ∧ Opened g first t := by
  have linked := c.recorded.linked (linked_seed c.founding)
  obtain ⟨t, building, proofs⟩ := c.anchored.proofs
  obtain ⟨t', building', built⟩ := exists_buildTimeProof linked.distinct first.sender first.id
  rw [building] at building'
  cases building'
  obtain ⟨numbers, greatest⟩ := built.count_of_singleton c.messageList_eq
  refine ⟨t, ?_, built.root_eq, built.anchor_eq, greatest, numbers,
    memberships_of_buildTimeProof c.vertices_eq building⟩
  rw [proofs, c.proofs_eq]
  rfl

theorem outset (c : Created law g first p u₁ u) : Outset law g first u where
  messages := by
    have stored := Dag.vertices_insert c.recorded.messages
    rw [c.references_eq] at stored
    rw [c.anchored.messages, stored]
    rfl
  residents := by rw [c.population_eq, c.founding.vertices_eq]
  genesis_eq := by rw [c.population_eq, c.founding.genesis_eq]
  law_eq := by rw [c.population_eq, c.founding.law_eq]
  proofs := c.opened
  snapshots := by
    have noted := Dag.vertices_insert c.anchored.snapshots
    rw [c.recorded.snapshots, c.recorded.population, seed_population, c.founding.ids_eq] at noted
    refine ⟨_, noted, fun d => ?_⟩
    rw [Snapshot.mem_ofList]
    exact List.mem_pair

end Created

/-- A creation succeeds just if all that it asks for holds, and its error is what is wrong first. It
leaves the first message, the two genesis accounts and one time proof with its snapshot. -/
theorem creation_exact (law : Law.Parameters) (g : GenesisPair) (first : Message) :
    ((∃ u, create law g first = .ok u) ↔ Creatable law g first) ∧
    (∀ e, create law g first = .error e ↔ CreationFault law g first e) ∧
    (∀ u, create law g first = .ok u → Outset law g first u) := by
  have cover := creatable_or_fault law g first
  obtain ⟨succeeds, fails⟩ :=
    exists_iff_of_cover cover Creatable.exists_create fun _ fault => fault.create_eq
  refine ⟨succeeds, fails, fun u created => ?_⟩
  obtain ⟨p, u₁, steps⟩ := exists_created created
  exact steps.outset

/-- A universe comes about from Adam, Eve and the first message, and notes both of them. It does not
from the message with the birth of Abel, which is by Adam too. -/
theorem creation_exact_adam :
    ∃ u s, create Sample.law Sample.genesis Sample.first = .ok u ∧
      Creatable Sample.law Sample.genesis Sample.first ∧
      Outset Sample.law Sample.genesis Sample.first u ∧
      u.snapshots.vertices = [⟨Sample.adamId, s, ∅⟩] ∧
      Sample.adam.id ∈ s ∧ Sample.eve.id ∈ s ∧ Sample.abelId ∉ s ∧
      create Sample.law Sample.genesis Sample.birth =
        .error (.malformedMessage Sample.birth.id) := by
  obtain ⟨u, created, -, told⟩ := Sample.exists_founded
  obtain ⟨succeeds, -, holds⟩ := creation_exact Sample.law Sample.genesis Sample.first
  have outset := holds u created
  obtain ⟨s, only, noted⟩ := outset.snapshots
  have absent : Sample.abelId ∉ s := by
    intro named
    have listed : Sample.abelId ∈ u.population.ids := by
      rw [Population.ids, Dag.ids, outset.residents]
      exact List.mem_pair.2 ((noted _).1 named)
    exact Sample.abelId_not_mem created told (Dag.mem_ids.1 listed)
  have creatable := succeeds.1 ⟨u, created⟩
  obtain ⟨a, member, sender, -⟩ := creatable.signed
  have founder : Founder Sample.law Sample.genesis Sample.birth a :=
    ⟨creatable.toFoundable, member, sender⟩
  have refused := (creation_exact Sample.law Sample.genesis Sample.birth).2.1
  exact ⟨u, s, created, creatable, outset, only, (noted _).2 (.inl rfl), (noted _).2 (.inr rfl),
    absent, (refused _).2 (.birth founder (by decide))⟩

end Universe

end Lineage
