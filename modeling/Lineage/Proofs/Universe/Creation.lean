import Lineage.Proofs.Population.History
import Lineage.Proofs.Universe.Reachable

/-!
# What a creation comes to

A universe is created from a population of two genesis accounts. Their first message is a text, so
nobody is born in it, and its sender is the root of the only time proof.
-/
namespace Lineage

namespace Universe

variable {u u₁ : Universe} {law : Law.Parameters} {genesis : GenesisPair} {first m : Message}
  {p : Population} {root anchor : Digest}

/-- A time proof that has been set up for a message is on its sender. -/
theorem anchored_of_addTimeProof (h : Linked u) (hm : u.messages.value? anchor = some m)
    (accepted : (u.addTimeProof anchor).2 = .ok ()) :
    Anchored u m.sender anchor (u.addTimeProof anchor).1 := by
  have outcome := addTimeProof_outcome h anchor
  generalize u.addTimeProof anchor = r at accepted outcome
  cases outcome with
  | refused _ => cases accepted
  | anchored s =>
    obtain ⟨x, hx, rfl⟩ := s.anchored
    rw [hm] at hx
    cases hx
    exact s

/-- The two changes that a creation makes to a universe without messages. -/
structure Created (law : Law.Parameters) (genesis : GenesisPair) (first : Message)
    (p : Population) (u₁ u : Universe) : Prop where
  founded : Population.ofGenesis genesis law = .ok p
  text : first.body.kind = .text
  recorded : Recorded (seed p) first u₁
  anchored : Anchored u₁ first.sender first.id u

theorem exists_created (h : create law genesis first = .ok u) :
    ∃ p u₁, Created law genesis first p u₁ u := by
  obtain ⟨p, u₁, hp, text, hadd, hanchor⟩ := exists_of_create h
  have start : Linked (seed p) := linked_seed (Population.founding_of_ofGenesis hp)
  have recorded := recorded_of_add_text start text (by rw [hadd])
  rw [hadd] at recorded
  have known := Dag.value?_insert_self recorded.messages
  have anchored := anchored_of_addTimeProof (recorded.linked start) known (by rw [hanchor])
  rw [hanchor] at anchored
  exact ⟨p, u₁, hp, text, recorded, anchored⟩

namespace Created

theorem founding (c : Created law genesis first p u₁ u) : Population.Founding genesis law p :=
  Population.founding_of_ofGenesis c.founded

theorem population_eq (c : Created law genesis first p u₁ u) : u.population = p := by
  rw [c.anchored.population, c.recorded.population, seed_population]

/-- The first message is by one of the two genesis accounts. -/
theorem isGenesis_sender (c : Created law genesis first p u₁ u) :
    u.population.IsGenesis first.sender := by
  have resident := c.anchored.resident
  rw [c.recorded.population, seed_population] at resident
  obtain ⟨a, ha⟩ := Population.mem_iff_account?.1 resident
  rw [c.population_eq]
  exact c.founding.isGenesis ha

/-- All accounts are noted in the first snapshot. -/
theorem snapshot?_eq (c : Created law genesis first p u₁ u) :
    u.snapshot? first.sender = some (.ofList p.ids) := by
  rw [snapshot?, Dag.value?_insert_self c.anchored.snapshots, c.recorded.population,
    seed_population]

end Created

end Universe

/-- Abel has not been noted at the creation, so he is not among the accounts before his birth. -/
theorem Sample.abelId_not_mem {u : Universe} (hu : Universe.create law genesis first = .ok u)
    (told : isComplete (u.add birth).1 = true) : abelId ∉ u.population := by
  obtain ⟨p, u₁, created⟩ := Universe.exists_created hu
  obtain ⟨-, s, -, -, hs, hout, -⟩ := found_of_isComplete told
  have linked : Universe.Linked u := Universe.Reachable.linked (.create hu)
  rw [Universe.snapshot?, (Universe.add_outcome linked birth).snapshots] at hs
  rw [show u.snapshots.value? adamId = _ from created.snapshot?_eq] at hs
  cases hs
  rw [created.population_eq]
  exact fun h => hout (Snapshot.mem_ofList.2 (Dag.mem_ids.2 h))

theorem Sample.abelId_mem {u : Universe} (hu : Universe.create law genesis first = .ok u)
    (told : isComplete (u.add birth).1 = true) : abelId ∈ (u.add birth).1.population := by
  obtain ⟨t, s, ht, hm, -⟩ := found_of_isComplete told
  have after : Universe.Linked (u.add birth).1 :=
    Universe.Reachable.linked (.perform (.create hu) (.add birth))
  exact after.members _ t _ ht (Dag.mem_iff_value?.2 ⟨_, hm⟩)

/-- Abel's parents are Adam and Eve. -/
theorem Sample.hasParents_abel {u : Universe}
    (hu : Universe.create law genesis first = .ok u) (told : isComplete (u.add birth).1 = true) :
    (u.add birth).1.population.HasParents abelId (adamId, eveId) := by
  have linked : Universe.Linked u := Universe.Reachable.linked (.create hu)
  have outcome := Universe.add_outcome linked birth
  obtain ⟨a, ha⟩ := Population.mem_iff_account?.1 (abelId_mem hu told)
  have proposal := outcome.proposedAccount_eq (abelId_not_mem hu told) ha
  cases proposal
  exact ⟨_, ha, rfl⟩

theorem Sample.parents_mem_abel {u : Universe} (hu : Universe.create law genesis first = .ok u)
    (told : isComplete (u.add birth).1 = true) : adamId ∈ u.population ∧ eveId ∈ u.population := by
  have linked : Universe.Linked u := Universe.Reachable.linked (.create hu)
  exact (Universe.add_outcome linked birth).parents_mem (abelId_not_mem hu told)
    (hasParents_abel hu told)

end Lineage
