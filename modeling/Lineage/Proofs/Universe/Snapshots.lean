import Lineage.Proofs.Digest.Ascending
import Lineage.Proofs.Universe.Authenticity
import Lineage.Proofs.Universe.Commutation
import Lineage.Proofs.Universe.Membership

/-!
# The chain of snapshots

Time proofs are kept under their roots, and snapshots as a graph in the order in which the time
proofs were set up. The two stay in step: the snapshots are those of the time proofs that the calls
have set up one after the other, each below all before it. Since accounts are only added at the end,
later snapshots contain the earlier ones.
-/
namespace Lineage.Universe

/-- A time proof that is set up: its root, and the accounts that are there at that time. -/
structure Anchoring where
  root : Digest
  accounts : List Digest

/-- The roots of the time proofs that are there in a later universe and were not before. -/
def newRoots (u u' : Universe) : List Digest :=
  u'.roots.filter fun root => decide (root ∉ u.proofs)

/-- The time proofs that calls set up one after the other. -/
def anchorings (u : Universe) : List Call → List Anchoring
  | [] => []
  | c :: rest =>
    (u.newRoots (u.perform c).1).map (⟨·, u.population.ids⟩) ++ (u.perform c).1.anchorings rest

variable {u u' u₁ : Universe} {log : List Anchoring} {root anchor : Digest} {m : Message}
  {law : Law.Parameters} {genesis : GenesisPair} {first : Message} {p : Population}

theorem newRoots_eq_nil (none : ∀ root, root ∈ u'.proofs → root ∈ u.proofs) :
    newRoots u u' = [] := by
  refine List.filter_eq_nil_iff.2 fun root hroot => ?_
  simpa using none root (DigestMap.mem_keys.1 hroot)

theorem newRoots_add (h : Linked u) (m : Message) : newRoots u (u.add m).1 = [] :=
  newRoots_eq_nil fun _ => (add_outcome h m).mem_proofs.1

theorem Anchored.newRoots_eq (s : Anchored u root anchor u') : newRoots u u' = [root] := by
  obtain ⟨t, -, hp⟩ := s.proofs
  have keys : u'.roots.Pairwise (· < ·) := List.pairwise_map.2 u'.proofs.ascending
  refine Digest.eq_of_ascending (keys.sublist List.filter_sublist) (List.pairwise_singleton _ _) ?_
  intro d
  rw [newRoots, List.mem_filter, roots, DigestMap.mem_keys, hp, DigestMap.mem_insert,
    List.mem_singleton, decide_eq_true_eq]
  constructor
  · rintro ⟨rfl | old, new⟩
    · rfl
    · exact absurd old new
  · rintro rfl
    exact ⟨.inl rfl, s.fresh⟩

/-- The snapshots are those of a list of time proofs, each below all before it. -/
structure Chained (log : List Anchoring) (u : Universe) : Prop where
  ids : u.snapshots.ids = log.map (·.root)
  vertex : ∀ before e after, log = before ++ e :: after → u.snapshots.get? e.root =
    some ⟨e.root, .ofList e.accounts, .ofList (before.map (·.root))⟩
  growing : log.Pairwise fun e f => e.accounts <+: f.accounts
  present : ∀ e ∈ log, e.accounts <+: u.population.ids
  founded : ∀ e ∈ log, ∀ id, u.population.IsGenesis id → id ∈ e.accounts

theorem Chained.snapshot?_eq (h : Chained log u) {e : Anchoring} (he : e ∈ log) :
    u.snapshot? e.root = some (.ofList e.accounts) := by
  obtain ⟨before, after, split⟩ := List.mem_iff_append.1 he
  rw [snapshot?, Dag.value?, h.vertex before e after split, Option.map_some]

theorem Chained.nil (h : u.snapshots = ∅) : Chained [] u where
  ids := by
    rw [h]
    rfl
  vertex := by
    intro before e after split
    exact absurd split.symm (List.append_ne_nil_of_right_ne_nil before (List.cons_ne_nil e after))
  growing := .nil
  present := by intro e he; cases he
  founded := by intro e he; cases he

/-- Without a new snapshot the chain stays, whoever is born. -/
theorem Chained.grow (h : Chained log u) (same : u'.snapshots = u.snapshots)
    (grows : u.population.GrowsTo u'.population) : Chained log u' where
  ids := same ▸ h.ids
  vertex := same ▸ h.vertex
  growing := h.growing
  present := fun e he => (h.present e he).trans grows.residents.ids
  founded := by
    intro e he id founder
    rw [Population.IsGenesis, grows.genesis_eq] at founder
    exact h.founded e he id founder

/-- A new snapshot comes below all others, and contains them. -/
theorem Chained.anchored (h : Chained log u) (hu : Linked u) (s : Anchored u root anchor u') :
    Chained (log ++ [⟨root, u.population.ids⟩]) u' where
  ids := by
    rw [Dag.ids_insert s.snapshots, h.ids, List.map_append]
    rfl
  vertex := by
    intro before e after split
    rcases List.eq_nil_or_concat after with rfl | ⟨rest, last, rfl⟩
    · obtain ⟨rfl, hlast⟩ := List.append_inj' split rfl
      cases hlast
      rw [Dag.get?_insert s.snapshots, if_pos rfl, h.ids]
    · rw [List.concat_eq_append, ← List.cons_append, ← List.append_assoc] at split
      obtain ⟨hlog, -⟩ := List.append_inj' split rfl
      have found := h.vertex before e rest hlog
      have known : e.root ∈ u.snapshots :=
        Dag.mem_of_mem_newestFirst (Dag.get?_eq_some_iff.1 found).1
      rw [Dag.get?_insert s.snapshots, if_neg (Dag.ne_of_mem s.snapshots known), found]
  growing := by
    refine List.pairwise_append.2 ⟨h.growing, List.pairwise_singleton _ _, ?_⟩
    intro e he f hf
    rw [List.mem_singleton.1 hf]
    exact h.present e he
  present := by
    intro e he
    rw [s.population]
    rcases List.mem_append.1 he with he | he
    · exact h.present e he
    · exact List.mem_singleton.1 he ▸ List.prefix_rfl
  founded := by
    intro e he id founder
    rw [s.population] at founder
    rcases List.mem_append.1 he with he | he
    · exact h.founded e he id founder
    · obtain ⟨a, ha, -⟩ := (hu.genesis id).1 founder
      rw [List.mem_singleton.1 he]
      exact Dag.mem_ids.2 (Population.mem_iff_account?.2 ⟨a, ha⟩)

theorem Chained.step (h : Chained log u) (hu : Linked u) (s : Step u u') :
    Chained (log ++ (newRoots u u').map (⟨·, u.population.ids⟩)) u' := by
  cases s with
  | stay =>
    rw [newRoots_eq_nil fun _ h => h, List.map_nil, List.append_nil]
    exact h
  | record s =>
    rw [newRoots_eq_nil fun _ => s.mem_proofs.1, List.map_nil, List.append_nil]
    exact h.grow s.snapshots (s.population ▸ .refl _)
  | birth s _ s' =>
    rw [newRoots_eq_nil fun _ h => s.mem_proofs.1 (s'.mem_proofs.1 h), List.map_nil,
      List.append_nil]
    exact h.grow (s'.snapshots.trans s.snapshots) (s.population ▸ s'.population.grows)
  | anchor s =>
    rw [s.newRoots_eq]
    exact h.anchored hu s

theorem Chained.run (h : Chained log u) (hu : Reachable u) (calls : List Call) :
    Chained (log ++ u.anchorings calls) (u.run calls) := by
  induction calls generalizing u log with
  | nil =>
    rw [anchorings, List.append_nil]
    exact h
  | cons c rest ih =>
    rw [anchorings, ← List.append_assoc]
    exact ih (h.step hu.linked (step_perform hu.linked c)) (hu.perform c)

/-- A creation sets up a time proof for its first message. -/
theorem Created.chained (c : Created law genesis first p u₁ u) :
    Chained [⟨first.sender, u.population.ids⟩] u := by
  have start : Chained [] u₁ := .nil c.recorded.snapshots
  have linked : Linked u₁ := c.recorded.linked (linked_seed c.founding)
  rw [c.anchored.population]
  exact start.anchored linked c.anchored

/-- Every universe has come about by calls after a creation. -/
theorem Reachable.exists_run (h : Reachable u) : ∃ law genesis first u₀ calls,
    Universe.create law genesis first = .ok u₀ ∧ u = u₀.run calls := by
  induction h with
  | create h => exact ⟨_, _, _, _, [], h, rfl⟩
  | perform _ c ih =>
    obtain ⟨law, genesis, first, u₀, calls, h, rfl⟩ := ih
    exact ⟨law, genesis, first, u₀, calls ++ [c], h, (run_append u₀ calls [c]).symm⟩

/-- The sender of a stored message is an account, so nothing but a time proof on it stands against
setting up one. -/
theorem Reachable.exists_anchored (h : Reachable u) (hm : u.messages.value? anchor = some m)
    (fresh : m.sender ∉ u.proofs) :
    ∃ u', u.addTimeProof anchor = (u', .ok ()) ∧ Anchored u m.sender anchor u' :=
  Universe.exists_anchored h.linked hm fresh (h.evolved.sender_mem hm)

/-- After Abel's birth Eve may send a text, and a time proof may be set up on her. -/
theorem exists_anchored_eve : ∃ u accounts,
    create Sample.law Sample.genesis Sample.first = .ok u ∧
    Sample.adamId ∈ u.population ∧ Sample.eveId ∈ u.population ∧ Sample.abelId ∉ u.population ∧
    Sample.abelId ∈ accounts ∧
    u.anchorings [.add Sample.birth, .add Sample.reply, .addTimeProof Sample.reply.id] =
      [⟨Sample.eveId, accounts⟩] := by
  obtain ⟨u, hu, -, told⟩ := Sample.exists_founded
  obtain ⟨u', v', hu', hv'⟩ := Sample.exists_answered
  rw [hu] at hu'
  cases hu'
  obtain ⟨p, u₁, created⟩ := exists_created hu
  have start : Reachable u := .create hu
  have family : Reachable (u.add Sample.birth).1 := start.perform (.add Sample.birth)
  have swap : [Sample.sequel, Sample.reply].Perm [Sample.reply, Sample.sequel] := .swap ..
  obtain ⟨deliverable, -⟩ := (exists_deliver_iff start.evolved (by decide)).1 ⟨v', hv'⟩
  have valid : u.validate Sample.reply = .ok () :=
    (deliverable.perm swap).validate_head (by decide)
  have still := start.linked.validate_add (m := Sample.birth) valid (by decide)
  obtain ⟨v, hv, recorded⟩ := add_text family.linked rfl still
  have sent : v = ((u.add Sample.birth).1.add Sample.reply).1 := by rw [hv]
  have last : Reachable v := sent ▸ family.perform (.add Sample.reply)
  have unrooted : Sample.reply.sender ∉ v.proofs := by
    rw [recorded.mem_proofs, (add_outcome start.linked Sample.birth).mem_proofs,
      ← start.linked.snapshots, ← Dag.mem_ids, created.chained.ids]
    have other : Sample.eveId ≠ Sample.adamId := by decide
    exact fun there => other (List.mem_singleton.1 there)
  have stored : v.messages.value? Sample.reply.id = some Sample.reply :=
    Dag.value?_insert_self recorded.messages
  obtain ⟨w, hw, anchored⟩ := last.exists_anchored stored unrooted
  obtain ⟨adam, eve⟩ := Sample.parents_mem_abel hu told
  refine ⟨u, v.population.ids, hu, adam, eve, Sample.abelId_not_mem hu told, ?_, ?_⟩
  · rw [recorded.population]
    exact Dag.mem_ids.2 (Sample.abelId_mem hu told)
  · have none : newRoots (u.add Sample.birth).1 v = [] := sent ▸ newRoots_add family.linked _
    simp only [anchorings, perform, newRoots_add start.linked, ← sent, none, hw,
      anchored.newRoots_eq]
    rfl

/-- There is one snapshot for each time proof, with those set up before it as parents. It notes just
the accounts of that time, so it contains all earlier ones, and noting them never fails. -/
theorem snapshots_in_order (h : Reachable u) :
    (∃ law genesis first u₀ calls, create law genesis first = .ok u₀ ∧ u = u₀.run calls) ∧
    (∀ law genesis first u₀ calls log, create law genesis first = .ok u₀ → u = u₀.run calls →
      log = ⟨first.sender, u₀.population.ids⟩ :: u₀.anchorings calls →
      u.snapshots.ids = log.map (·.root) ∧
      ∀ before e after, log = before ++ e :: after →
        (∀ root, root ∈ u.snapshotParents e.root ↔ root ∈ before.map (·.root)) ∧
        (∃ s, u.snapshot? e.root = some s ∧ (∀ a, a ∈ s ↔ a ∈ e.accounts) ∧
          (∀ a ∈ s, a ∈ u.population) ∧
          ∀ f ∈ before, ∃ s', u.snapshot? f.root = some s' ∧ ∀ a ∈ s', a ∈ s) ∧
        u.population.genesis.1 ∈ e.accounts ∧ u.population.genesis.2 ∈ e.accounts ∧
        (∀ f ∈ before, f.accounts <+: e.accounts) ∧ e.accounts <+: u.population.ids) ∧
    u.snapshots.ids.Nodup ∧ (∀ root, root ∈ u.snapshots.ids ↔ root ∈ u.proofs) ∧
    (∀ root, root ∉ u.proofs → ∃ snapshots, u.snapshots.insert
      ⟨root, .ofList u.population.ids, .ofList u.snapshots.ids⟩ = .ok snapshots) ∧
    ∀ anchor m, u.messages.value? anchor = some m → m.sender ∉ u.proofs →
      (u.addTimeProof anchor).2 = .ok () := by
  refine ⟨h.exists_run, ?_, u.snapshots.nodup_ids, ?_, ?_, ?_⟩
  · rintro law genesis first u₀ calls log hu₀ rfl hlog
    obtain ⟨p, u₁, created⟩ := exists_created hu₀
    have chained := created.chained.run (.create hu₀) calls
    rw [List.singleton_append, ← hlog] at chained
    refine ⟨chained.ids, ?_⟩
    intro before e after split
    have member : e ∈ log := split ▸ List.mem_append_right before (List.mem_cons_self ..)
    have growing := chained.growing
    rw [split, List.pairwise_append] at growing
    have grows : ∀ f ∈ before, f.accounts <+: e.accounts :=
      fun f hf => growing.2.2 f hf e (List.mem_cons_self ..)
    have present := chained.present e member
    refine ⟨?parents, ?snapshot, chained.founded e member _ (.inl rfl),
      chained.founded e member _ (.inr rfl), grows, present⟩
    case parents =>
      intro root
      rw [snapshotParents, chained.vertex before e after split, Option.map_some, Option.getD_some,
        ← DigestSet.mem_def, DigestSet.mem_ofList]
    case snapshot =>
      refine ⟨_, chained.snapshot?_eq member, fun _ => Snapshot.mem_ofList, ?_, ?_⟩
      · intro a ha
        exact Dag.mem_ids.1 (present.subset (Snapshot.mem_ofList.1 ha))
      · intro f hf
        have earlier : f ∈ log := split ▸ List.mem_append_left _ hf
        refine ⟨_, chained.snapshot?_eq earlier, fun a ha => ?_⟩
        exact Snapshot.mem_ofList.2 ((grows f hf).subset (Snapshot.mem_ofList.1 ha))
  · intro root
    rw [Dag.mem_ids, h.linked.snapshots]
  · intro root fresh
    exact h.linked.exists_snapshot fresh
  · intro anchor m hm fresh
    obtain ⟨u', hu', -⟩ := h.exists_anchored hm fresh
    rw [hu']

/-- Adam's snapshot is there from the beginning and does not note Abel. Eve's has it as its parent,
and notes Abel too. -/
theorem snapshots_in_order_eve : ∃ u s s', Reachable u ∧
    u.snapshots.ids = [Sample.adamId, Sample.eveId] ∧
    (∀ root, root ∈ u.snapshotParents Sample.eveId ↔ root = Sample.adamId) ∧
    u.snapshot? Sample.adamId = some s ∧ u.snapshot? Sample.eveId = some s' ∧
    Sample.adamId ∈ s ∧ Sample.eveId ∈ s ∧ Sample.abelId ∉ s ∧ Sample.abelId ∈ s' ∧
    ∀ a ∈ s, a ∈ s' := by
  obtain ⟨u, accounts, hu, adam, eve, abel, born, log⟩ := exists_anchored_eve
  have start : Reachable u := .create hu
  have last := start.run [.add Sample.birth, .add Sample.reply, .addTimeProof Sample.reply.id]
  obtain ⟨-, order, -⟩ := snapshots_in_order last
  obtain ⟨ids, chain⟩ := order _ _ _ u _ _ hu rfl rfl
  rw [log] at ids chain
  obtain ⟨-, ⟨s, found, noted, -⟩, -⟩ := chain [] _ _ rfl
  obtain ⟨parents, ⟨s', found', noted', -, earlier⟩, -⟩ := chain [_] _ [] rfl
  obtain ⟨s₁, again, contained⟩ := earlier _ (List.mem_singleton_self _)
  rw [found] at again
  cases again
  refine ⟨_, s, s', last, ids, ?_, found, found', (noted _).2 (Dag.mem_ids.2 adam),
    (noted _).2 (Dag.mem_ids.2 eve), ?_, (noted' _).2 born, contained⟩
  · intro root
    rw [parents]
    exact List.mem_singleton
  · exact fun named => abel (Dag.mem_ids.1 ((noted _).1 named))

end Lineage.Universe
