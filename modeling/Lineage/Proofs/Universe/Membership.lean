import Lineage.Proofs.Dag.Kinship
import Lineage.Proofs.Dag.Parts
import Lineage.Proofs.Law.Windows
import Lineage.Proofs.Universe.Creation
import Lineage.Proofs.Universe.Growth

/-!
# Who is a member of a time proof

When a time proof is set up, all accounts of that time become its members. Later an account becomes
a member by being born, if its birth passes the law there. Since the law asks of both parents to be
members, the members form a part of the population that is closed under ancestors, in the order of
admission.
-/
namespace Lineage

namespace TimeProof.Enrolment

variable {t t' : TimeProof} {residents residents' : Dag Resident} {account : Digest}
  {parents : List Digest} {bornAt : Steps} {r : Resident}

/-- No parent is left out when all of them are members. -/
theorem memberships_of_known (e : t.Enrolment account parents bornAt t')
    (known : ∀ p ∈ parents, p ∈ t.memberships) :
    t.memberships.insert ⟨account, ⟨bornAt⟩, .ofList parents⟩ = .ok t'.memberships := by
  have all : parents.filter (fun id => id ∈ t.memberships) = parents := by
    simpa [List.filter_eq_self] using known
  have joined := e.memberships
  rwa [all] at joined

theorem partOf (part : t.memberships.PartOf residents) (e : t.Enrolment account parents bornAt t')
    (i : residents.insert ⟨account, r, .ofList parents⟩ = .ok residents')
    (known : ∀ p ∈ parents, p ∈ t.memberships) : t'.memberships.PartOf residents' :=
  part.insert (e.memberships_of_known known) i rfl

end TimeProof.Enrolment

namespace Universe

variable {u u' u₁ : Universe} {root d : Digest} {t t' t₁ : TimeProof} {m : Message} {c : Call}

/-- The members of every time proof have the parents there that they have in the population. -/
def Nested (u : Universe) : Prop :=
  ∀ root t, u.proofs.get? root = some t → t.memberships.PartOf u.population.residents

theorem Recorded.memberships_eq (s : Recorded u m u') (ht : u.proofs.get? root = some t)
    (ht' : u'.proofs.get? root = some t') : t'.memberships = t.memberships := by
  obtain ⟨t₀, ht₀, hcase⟩ := s.get?_proofs ht'
  rw [ht] at ht₀
  cases ht₀
  rcases hcase with ⟨-, rfl⟩ | ⟨-, sequence, e⟩
  · rfl
  · exact e.memberships

/-- Neither the accounts nor the members change, so the law says the same of two parents. -/
theorem Recorded.verdict_eq (s : Recorded u m u') (ht : u.proofs.get? root = some t)
    (ht' : u'.proofs.get? root = some t') (parents : Digest × Digest) :
    u'.verdict t' parents m.id = Law.checkParents u.population.law u.population parents
      (t.clockAt (t'.causalTime u'.messages m.id)) := by
  rw [verdict, s.population, TimeProof.clockAt, TimeProof.clockAt]
  simp only [TimeProof.member?, s.memberships_eq ht ht']

theorem Recorded.nested (s : Recorded u m u') (h : Nested u) : Nested u' := by
  intro root t' ht'
  obtain ⟨t, ht, -⟩ := s.get?_proofs ht'
  rw [s.memberships_eq ht ht', s.population]
  exact h root t ht

/-- The law lets a birth pass only where both parents are members. -/
theorem mem_of_verdict {parents : Digest × Digest} {message : Digest}
    (hv : u.verdict t parents message = .ok ()) :
    ∀ p ∈ [parents.1, parents.2], p ∈ t.memberships := by
  intro p hp
  obtain ⟨born, lifecycle, window⟩ :=
    Law.checkParents_eq_ok_iff.1 hv p (List.mem_pair.1 hp)
  obtain ⟨membership, hm, -⟩ := Option.map_eq_some_iff.1 window.bornAt
  exact Dag.mem_iff_value?.2 ⟨membership, hm⟩

theorem Admitted.nested {b : Population.CheckedBirth} {message : Digest}
    (s : Admitted u b message u') (h : Nested u) : Nested u' := by
  intro root t' ht'
  obtain ⟨t, ht, ⟨-, rfl⟩ | ⟨hv, e⟩⟩ := s.get?_proofs ht'
  · exact (h root t' ht).insert_right s.population.residents
  · exact e.partOf (h root t ht) s.population.residents (mem_of_verdict hv)

theorem Linked.parents_eq (h : Linked u) {v : Vertex Resident}
    (hv : v ∈ u.population.residents.newestFirst) :
    v.parents = .ofList v.value.account.parentList := by
  refine DigestSet.ext_mem fun d => ?_
  rw [h.parents v hv, DigestSet.mem_ofList, Account.parentList]
  cases v.value.account.parentIds <;> simp

/-- Taking in accounts with their parents before them drops no parent. -/
theorem links_enrollAll {messages : Dag Message} {vs older : List (Vertex Resident)}
    (h : enrollAll messages t vs = .ok t') (grown : Grown (vs.reverse ++ older))
    (named : ∀ v ∈ vs, v.parents = .ofList v.value.account.parentList)
    (start : t.memberships.newestFirst.map Vertex.link = older.map Vertex.link) :
    t'.memberships.newestFirst.map Vertex.link = (vs.reverse ++ older).map Vertex.link := by
  induction vs generalizing t older with
  | nil =>
    cases h
    exact start
  | cons v vs ih =>
    rw [List.reverse_cons, List.append_assoc, List.singleton_append] at grown ⊢
    have ids : t.memberships.newestFirst.map (·.id) = older.map (·.id) := by
      simpa [Function.comp_def, Vertex.link] using congrArg (List.map Prod.fst) start
    have known : ∀ p ∈ v.value.account.parentList, p ∈ t.memberships := by
      intro p hp
      rw [Dag.mem_def, ids]
      cases Grown.of_append grown with
      | cons _ known _ =>
        exact known p (named v (List.mem_cons_self ..) ▸ DigestSet.mem_ofList.2 hp)
    rw [enrollAll] at h
    split at h
    · next t₁ h₁ =>
      have e := TimeProof.addMember_eq_ok_iff.1 h₁
      refine ih h grown (fun w hw => named w (List.mem_cons_of_mem _ hw)) ?_
      rw [Dag.newestFirst_insert (e.memberships_of_known known), List.map_cons, List.map_cons, start]
      simp [Vertex.link, named v (List.mem_cons_self ..)]
    · cases h

theorem memberships_replay {l : List Message} (h : replay t l = .ok t') :
    t'.memberships = t.memberships := by
  rw [replay_eq rfl] at h
  split at h
  · next t₁ sequences hcount =>
    cases h
    exact (TimeProof.recount_of_countAll hcount).memberships
  · cases h

/-- All accounts are members where a time proof is set up, with the parents that they have. -/
theorem Anchored.nested {anchored anchor : Digest} (s : Anchored u anchored anchor u')
    (hu : Linked u) (h : Nested u) : Nested u' := by
  intro root t' ht'
  obtain ⟨t, ht, hp⟩ := s.proofs
  rw [hp, DigestMap.get?_insert] at ht'
  rw [s.population]
  split at ht'
  · cases ht'
    simp only [buildTimeProof, bind, Except.bind] at ht
    split at ht
    · cases ht
    · next t₀ hreplay =>
      have grown : Grown (u.population.residents.vertices.reverse ++ []) := by
        simpa [Dag.vertices] using u.population.residents.grown
      have links := links_enrollAll ht grown
        (fun v hv => hu.parents_eq (Dag.mem_vertices.1 hv))
        (by rw [memberships_replay hreplay]; rfl)
      rw [Dag.PartOf, links]
      simp [Dag.vertices]
  · exact h root t' ht'

theorem Evolved.nested (h : Evolved u) : Nested u := by
  induction h with
  | seed _ => intro root t ht; cases ht
  | step h s ih =>
    cases s with
    | record s => exact s.nested ih
    | birth s => exact s.nested ih
    | anchor s => exact s.nested h.linked ih

/-- Whether a call admits an account whose birth the law of a time proof lets pass: the account is
new, and so says the law of its parents at the time of the message that is taken in. -/
def PassesIn (u : Universe) (root account : Digest) (c : Call) : Prop :=
  ∃ m t parents now, c = .add m ∧ account ∉ u.population ∧
    (u.perform c).1.population.HasParents account parents ∧
    (u.perform c).1.causalTime? root m.id = some now ∧ u.proofs.get? root = some t ∧
    Law.checkParents u.population.law u.population parents (t.clockAt now) = .ok ()

/-- Whether one of some calls does. -/
def PassesAlong (u : Universe) (root account : Digest) : List Call → Prop
  | [] => False
  | c :: rest => u.PassesIn root account c ∨ (u.perform c).1.PassesAlong root account rest

theorem PassesIn.fresh (h : u.PassesIn root d c) : d ∉ u.population := by
  obtain ⟨m, t, parents, now, -, new, -⟩ := h
  exact new

theorem PassesAlong.fresh {calls : List Call} (hu : Reachable u)
    (h : u.PassesAlong root d calls) : d ∉ u.population := by
  induction calls generalizing u with
  | nil => exact h.elim
  | cons c rest ih =>
    rcases h with first | later
    · exact first.fresh
    · have grows := (perform_evolves hu.linked c).grows
      exact fun hd => ih (hu.perform c) later (grows.residents.mem hd)

/-- An account that is admitted in a message becomes a member where its birth passes. -/
theorem AddOutcome.mem_of_passes {r : Universe × Except UniverseError Unit} {now : Steps}
    {parents : Digest × Digest} (outcome : AddOutcome u m r) (new : d ∉ u.population)
    (named : r.1.population.HasParents d parents) (time : r.1.causalTime? root m.id = some now)
    (ht : u.proofs.get? root = some t)
    (passes : Law.checkParents u.population.law u.population parents (t.clockAt now) = .ok ())
    (ht' : r.1.proofs.get? root = some t') : d ∈ t'.memberships := by
  obtain ⟨a, ha, -⟩ := id named
  obtain ⟨w, b, s, -, s', rfl⟩ :=
    outcome.exists_admitted new (Population.mem_iff_account?.2 ⟨a, ha⟩)
  have same : parents = b.parents :=
    named.unique ((s'.population.hasParents s'.parentIds_eq).2 (.inl ⟨rfl, rfl⟩))
  obtain ⟨t₁, ht₁⟩ := DigestMap.mem_iff_get?.1
    (s.mem_proofs.2 (DigestMap.mem_iff_get?.2 ⟨t, ht⟩))
  have kept := s'.grows.kept.causalTime? root m.id _ (causalTime?_eq ht₁ s.stored)
  rw [time, Option.some.injEq] at kept
  rw [same, kept, ← s.verdict_eq ht ht₁] at passes
  obtain ⟨t₂, ht₂, e⟩ := s'.proofs_ok root t₁ ht₁ passes
  rw [ht'] at ht₂
  cases ht₂
  exact e.mem_iff.2 (.inl rfl)

/-- A new member of a time proof that is there has been born in the message that is taken in, and
its birth has passed there. -/
theorem AddOutcome.passes_of_mem {r : Universe × Except UniverseError Unit}
    (outcome : AddOutcome u m r) (h : Linked u) (ht : u.proofs.get? root = some t)
    (ht' : r.1.proofs.get? root = some t') (hd : d ∈ t'.memberships) :
    d ∈ t.memberships ∨ ∃ parents now, d ∉ u.population ∧ r.1.population.HasParents d parents ∧
      r.1.causalTime? root m.id = some now ∧
      Law.checkParents u.population.law u.population parents (t.clockAt now) = .ok () := by
  cases outcome with
  | refused _ =>
    rw [ht] at ht'
    cases ht'
    exact .inl hd
  | text s _ => exact .inl (s.memberships_eq ht ht' ▸ hd)
  | rejected s _ _ => exact .inl (s.memberships_eq ht ht' ▸ hd)
  | collided s _ _ => exact .inl (s.memberships_eq ht ht' ▸ hd)
  | @born w _ b s _ s' =>
    obtain ⟨t₁, ht₁, -, keep, hself⟩ := s'.member? (s.linked h) ht'
    obtain ⟨membership, hm⟩ := Dag.mem_iff_value?.1 hd
    by_cases new : d = b.account.id
    · subst new
      have named := (s'.population.hasParents s'.parentIds_eq).2 (.inl ⟨rfl, rfl⟩)
      have time := s'.grows.kept.causalTime? root m.id _ (causalTime?_eq ht₁ s.stored)
      have verdict := (hself membership hm).1
      rw [s.verdict_eq ht ht₁] at verdict
      exact .inr ⟨b.parents, _, s.population ▸ s'.population.fresh, named, time, verdict⟩
    · have old : t₁.member? d = some membership := keep d new ▸ hm
      rw [← s.memberships_eq ht ht₁]
      exact .inl (Dag.mem_iff_value?.2 ⟨membership, old⟩)

/-- Setting up a time proof changes no other. -/
theorem AnchorOutcome.get?_proofs {anchor : Digest} {r : Universe × Except UniverseError Unit}
    (outcome : AnchorOutcome u anchor r) (ht : u.proofs.get? root = some t) :
    r.1.proofs.get? root = some t := by
  cases outcome with
  | refused _ => exact ht
  | @anchored anchored _ s =>
    obtain ⟨built, -, hp⟩ := s.proofs
    have other : root ≠ anchored := by
      rintro rfl
      exact s.fresh (DigestMap.mem_iff_get?.2 ⟨t, ht⟩)
    rw [hp, DigestMap.get?_insert_of_ne _ _ other, ht]

theorem mem_memberships_perform (h : Linked u) (c : Call) (ht : u.proofs.get? root = some t)
    (ht' : (u.perform c).1.proofs.get? root = some t') :
    d ∈ t'.memberships ↔ d ∈ t.memberships ∨ u.PassesIn root d c := by
  constructor
  · intro hd
    cases c with
    | add m =>
      rcases (add_outcome h m).passes_of_mem h ht ht' hd with
        old | ⟨parents, now, new, named, time, passes⟩
      · exact .inl old
      · exact .inr ⟨m, t, parents, now, rfl, new, named, time, ht, passes⟩
    | addTimeProof anchor =>
      have same := (addTimeProof_outcome h anchor).get?_proofs ht
      rw [perform, same] at ht'
      cases ht'
      exact .inl hd
    | addTimeProofFor sender =>
      obtain ⟨anchor, outcome⟩ := addTimeProofFor_outcome h sender
      have same := outcome.get?_proofs ht
      rw [perform, same] at ht'
      cases ht'
      exact .inl hd
  · rintro (old | ⟨m, t₁, parents, now, rfl, new, named, time, ht₁, passes⟩)
    · obtain ⟨t₁, ht₁, continues⟩ := (perform_evolves h c).grows.proofs root t ht
      rw [ht₁] at ht'
      cases ht'
      exact continues.memberships.mem old
    · exact (add_outcome h m).mem_of_passes new named time ht₁ passes ht'

theorem mem_memberships_run (h : Reachable u) (calls : List Call)
    (ht : u.proofs.get? root = some t) (ht' : (u.run calls).proofs.get? root = some t') :
    d ∈ t'.memberships ↔ d ∈ t.memberships ∨ u.PassesAlong root d calls := by
  induction calls generalizing u t with
  | nil =>
    rw [run, ht] at ht'
    cases ht'
    simp [PassesAlong]
  | cons c rest ih =>
    obtain ⟨t₁, ht₁, -⟩ := (perform_evolves h.linked c).grows.proofs root t ht
    rw [ih (h.perform c) ht₁ ht', mem_memberships_perform h.linked c ht ht₁, PassesAlong, or_assoc]

/-- A universe in which a time proof has just been set up, by its creation or by a call. -/
inductive SetsUp (root : Digest) : Universe → Prop where
  | create {law : Law.Parameters} {genesis : GenesisPair} {first : Message} {u : Universe}
      (h : create law genesis first = .ok u) (there : root ∈ u.proofs) : SetsUp root u
  | call {u : Universe} (h : Reachable u) (c : Call) (fresh : root ∉ u.proofs)
      (there : root ∈ (u.perform c).1.proofs) : SetsUp root (u.perform c).1

theorem SetsUp.reachable (s : SetsUp root u) : Reachable u := by
  cases s with
  | create h _ => exact .create h
  | call h c _ _ => exact h.perform c

theorem run_append (u : Universe) (calls later : List Call) :
    u.run (calls ++ later) = (u.run calls).run later := by
  induction calls generalizing u with
  | nil => rfl
  | cons c rest ih => exact ih (u.perform c).1

theorem Reachable.exists_setsUp (h : Reachable u) (there : root ∈ u.proofs) :
    ∃ u₁ calls, SetsUp root u₁ ∧ u = u₁.run calls := by
  induction h with
  | @create _ _ _ u h => exact ⟨u, [], .create h there, rfl⟩
  | @perform u h c ih =>
    by_cases before : root ∈ u.proofs
    · obtain ⟨u₁, calls, s, rfl⟩ := ih before
      exact ⟨u₁, calls ++ [c], s, (run_append u₁ calls [c]).symm⟩
    · exact ⟨_, [], .call h c before there, rfl⟩

/-- All accounts are members at first, and are noted in the snapshot. -/
theorem Step.members_of_fresh (s : Step u u') (hu : Linked u) (fresh : root ∉ u.proofs)
    (ht : u'.proofs.get? root = some t) :
    t.members = u'.population.ids ∧
      ∃ s, u'.snapshot? root = some s ∧ ∀ a, a ∈ s ↔ a ∈ u'.population.ids := by
  have there : root ∈ u'.proofs := DigestMap.mem_iff_get?.2 ⟨t, ht⟩
  cases s with
  | stay => exact absurd there fresh
  | record s => exact absurd (s.mem_proofs.1 there) fresh
  | birth s _ s' => exact absurd (s.mem_proofs.1 (s'.mem_proofs.1 there)) fresh
  | @anchor anchored _ _ s =>
    obtain ⟨t₁, built, hp⟩ := s.built hu
    rw [hp, DigestMap.get?_insert] at ht
    rw [s.population]
    split at ht
    · next same =>
      cases ht
      subst same
      exact ⟨built.members, _, Dag.value?_insert_self s.snapshots, fun _ => Snapshot.mem_ofList⟩
    · exact absurd (DigestMap.mem_iff_get?.2 ⟨t, ht⟩) fresh

theorem SetsUp.members (s : SetsUp root u) (ht : u.proofs.get? root = some t) :
    t.members = u.population.ids ∧
      ∃ s, u.snapshot? root = some s ∧ ∀ a, a ∈ s ↔ a ∈ u.population.ids := by
  cases s with
  | @create law genesis first _ h there =>
    obtain ⟨p, hp, rfl⟩ := create_eq_ok h
    have start : Evolved (seed p) := .seed (Population.founding_of_ofGenesis hp)
    have one := start.trans (perform_evolves start.linked (.add first))
    have none_there : root ∉ ((seed p).add first).1.proofs := by
      rw [(add_outcome start.linked first).mem_proofs]
      exact fun h => by cases h
    exact (step_perform one.linked (.addTimeProof first.id)).members_of_fresh one.linked
      none_there ht
  | call h c fresh there => exact (step_perform h.linked c).members_of_fresh h.linked fresh ht

theorem SetsUp.there (s : SetsUp root u) : root ∈ u.proofs := by
  cases s with
  | create _ there => exact there
  | call _ _ _ there => exact there

/-- The members of a time proof are the accounts of its beginning, and after them those that were
born later by its law. -/
theorem SetsUp.members_run (s : SetsUp root u) (calls : List Call)
    (ht : (u.run calls).proofs.get? root = some t) :
    ∃ later, t.members = u.population.ids ++ later ∧
      ∀ d, d ∈ later ↔ u.PassesAlong root d calls := by
  have hu : Reachable u := s.reachable
  obtain ⟨t₁, ht₁⟩ := DigestMap.mem_iff_get?.1 s.there
  obtain ⟨t', ht', continues⟩ := (hu.evolves_run calls).grows.proofs root t₁ ht₁
  rw [ht] at ht'
  cases ht'
  obtain ⟨later, order⟩ := continues.memberships.ids
  have start : t₁.memberships.ids = u.population.ids := (s.members ht₁).1
  rw [start] at order
  refine ⟨later, order.symm, ?_⟩
  intro d
  have known : d ∈ t₁.memberships ↔ d ∈ u.population.ids := by rw [← start, Dag.mem_ids]
  have mem : d ∈ u.population.ids ++ later ↔
      d ∈ u.population.ids ∨ u.PassesAlong root d calls := by
    rw [order, Dag.mem_ids, mem_memberships_run hu calls ht₁ ht, known]
  rw [List.mem_append] at mem
  have distinct := t.memberships.nodup_ids
  rw [← order, List.nodup_append] at distinct
  constructor
  · intro hd
    have new : d ∉ u.population.ids := fun old => distinct.2.2 d old d hd rfl
    exact (mem.1 (.inr hd)).resolve_left new
  · intro passes
    have new : d ∉ u.population.ids := fun old => passes.fresh hu (Dag.mem_ids.1 old)
    exact (mem.2 (.inr passes)).resolve_left new

/-- With a member all its ancestors are members, and the order is that of admission. First come all
accounts of the beginning, noted in the snapshot, then just those born later by its law. -/
theorem members_in_order (h : Reachable u) (ht : u.proofs.get? root = some t) :
    (∀ d ∈ t.memberships,
      (∃ v w, t.memberships.get? d = some v ∧ u.population.residents.get? d = some w ∧
        v.parents = w.parents) ∧
      (∀ q, u.population.HasParents d q → q.1 ∈ t.memberships ∧ q.2 ∈ t.memberships) ∧
      ∀ a, u.population.isAncestor a d = true → a ∈ t.memberships) ∧
    t.members.Nodup ∧ t.members.Sublist u.population.ids ∧
    (∃ u₁ calls, SetsUp root u₁ ∧ u = u₁.run calls) ∧
    ∀ u₁ calls, SetsUp root u₁ → u = u₁.run calls →
      (∃ s, u.snapshot? root = some s ∧ ∀ a, a ∈ s ↔ a ∈ u₁.population.ids) ∧
      ∃ later, t.members = u₁.population.ids ++ later ∧
        ∀ d, d ∈ later ↔ u₁.PassesAlong root d calls := by
  have part : t.memberships.PartOf u.population.residents := h.evolved.nested root t ht
  refine ⟨?_, t.memberships.nodup_ids, part.ids, ?_, ?_⟩
  · intro d hd
    refine ⟨part.exists_vertices hd, ?_, ?_⟩
    · rintro q ⟨a, ha, hq⟩
      obtain ⟨v, hv, rfl, rfl⟩ := Population.account?_eq_some_iff.1 ha
      have edge : ∀ p, p = q.1 ∨ p = q.2 → p ∈ t.memberships := by
        intro p hp
        exact part.parent_mem hd ⟨v, hv, rfl, (h.linked.parents v hv p).2 ⟨q, hq, hp⟩⟩
      exact ⟨edge q.1 (.inl rfl), edge q.2 (.inr rfl)⟩
    · intro a ha
      exact part.ancestor_mem hd (Dag.isAncestor_iff.1 ha)
  · exact h.exists_setsUp (DigestMap.mem_iff_get?.2 ⟨t, ht⟩)
  · rintro u₁ calls s rfl
    obtain ⟨t₁, ht₁⟩ := DigestMap.mem_iff_get?.1 s.there
    obtain ⟨-, noted, found, mem_iff⟩ := s.members ht₁
    have kept := (s.reachable.evolves_run calls).grows.kept
    exact ⟨⟨noted, (kept.snapshot? root noted found).1, mem_iff⟩, s.members_run calls ht⟩

/-- Abel became a member of Adam's time proof by his birth, and his parents had been members. They
are noted in its snapshot, and he is not. -/
theorem members_in_order_abel : ∃ u t s later,
    create Sample.law Sample.genesis Sample.first = .ok u ∧
    (u.run [.add Sample.birth]).proofs.get? Sample.adamId = some t ∧
    (u.run [.add Sample.birth]).snapshot? Sample.adamId = some s ∧
    Sample.abelId ∈ t.memberships ∧
    (∀ q, (u.run [.add Sample.birth]).population.HasParents Sample.abelId q →
      q.1 ∈ t.memberships ∧ q.2 ∈ t.memberships) ∧
    t.members = u.population.ids ++ later ∧ Sample.abelId ∈ later ∧
    u.PassesAlong Sample.adamId Sample.abelId [.add Sample.birth] ∧
    Sample.adamId ∈ s ∧ Sample.eveId ∈ s ∧ Sample.abelId ∉ s := by
  obtain ⟨u, hu, -, told⟩ := Sample.exists_founded
  obtain ⟨t, -, ht, hm, -⟩ := Sample.found_of_isComplete told
  have start : Reachable u := .create hu
  have member : Sample.abelId ∈ t.memberships := Dag.mem_iff_value?.2 ⟨_, hm⟩
  have there : Sample.adamId ∈ u.proofs :=
    (add_outcome start.linked Sample.birth).mem_proofs.1 (DigestMap.mem_iff_get?.2 ⟨t, ht⟩)
  obtain ⟨closed, -, -, -, order⟩ := members_in_order (start.run [.add Sample.birth]) ht
  obtain ⟨⟨s, found, noted⟩, later, members, born⟩ := order u _ (.create hu there) rfl
  have absent : Sample.abelId ∉ u.population.ids :=
    fun old => Sample.abelId_not_mem hu told (Dag.mem_ids.1 old)
  have listed : Sample.abelId ∈ t.members := Dag.mem_ids.2 member
  rw [members, List.mem_append] at listed
  have new := listed.resolve_left absent
  obtain ⟨adam, eve⟩ := Sample.parents_mem_abel hu told
  refine ⟨u, t, s, later, hu, ht, found, member, (closed _ member).2.1, members, new,
    (born _).1 new, ?_, ?_, ?_⟩
  · exact (noted _).2 (Dag.mem_ids.2 adam)
  · exact (noted _).2 (Dag.mem_ids.2 eve)
  · exact fun old => absent ((noted _).1 old)

end Universe

end Lineage
