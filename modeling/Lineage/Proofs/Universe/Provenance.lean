import Lineage.Proofs.Universe.Creation
import Lineage.Proofs.Universe.Growth

/-!
# Where accounts come from

Every account but the genesis accounts was born in a stored message that carries just this account,
after the birth messages of its parents, and no other account was born in that message. A birth is
judged once, when its message is stored. If it is rejected, the message stays without an account,
and is refused as known whenever it comes again.
-/
namespace Lineage

/-- What precedes something in a graph does so in every later one. -/
theorem Dag.GrowsTo.precedes {α : Type} {g h : Dag α} (grows : g.GrowsTo h) {a b : Digest}
    (hab : g.Precedes a b) : h.Precedes a b := by
  obtain ⟨before, after, hids, ha⟩ := hab
  obtain ⟨later, hlater⟩ := grows.ids
  exact ⟨before, after ++ later, by rw [← hlater, hids]; simp, ha⟩

namespace Universe

variable {u u₁ u' : Universe} {m : Message} {b : Population.CheckedBirth}

/-- An account was born in a stored message, which came after the birth messages of its parents. -/
structure BornIn (u : Universe) (a : Account) (message : Digest) : Prop where
  carried : ∃ m c, u.messages.value? message = some m ∧ m.body = .birth c ∧
    c.toAccount message = .ok a
  parents : ∃ q, a.parentIds = some q ∧ ∀ p, p = q.1 ∨ p = q.2 →
    ¬ (p = u.population.genesis.1 ∨ p = u.population.genesis.2) →
      ∃ parent c, u.population.account? p = some parent ∧ parent.birthMessage = some c ∧
        u.messages.Precedes c message

/-- Every account with a birth message was born in it, and nobody else was. -/
structure Provenance (u : Universe) : Prop where
  born : ∀ id a d, u.population.account? id = some a → a.birthMessage = some d → BornIn u a d
  distinct : ∀ id a id' a' d, u.population.account? id = some a → a.birthMessage = some d →
    u.population.account? id' = some a' → a'.birthMessage = some d → id = id'

theorem BornIn.mono {a : Account} {d : Digest} (h : BornIn u a d) (grows : GrowsTo u u') :
    BornIn u' a d := by
  obtain ⟨⟨m, c, hm, hbody, hc⟩, q, hq, hparents⟩ := h
  refine ⟨⟨m, c, grows.messages.value?_mono hm, hbody, hc⟩, q, hq, ?_⟩
  intro p hp hborn
  rw [grows.genesis_eq] at hborn
  obtain ⟨parent, e, ha, he, hbefore⟩ := hparents p hp hborn
  exact ⟨parent, e, grows.kept.account? p parent ha, he, grows.messages.precedes hbefore⟩

theorem Provenance.of_population_eq (h : Provenance u) (grows : GrowsTo u u')
    (same : u'.population = u.population) : Provenance u' := by
  refine ⟨?_, same ▸ h.distinct⟩
  intro id a d ha hd
  exact (h.born id a d (same ▸ ha) hd).mono grows

/-- A birth is judged right after its message is stored, so its parents were born before. -/
theorem Recorded.bornIn (s : Recorded u m u₁) (hu : Linked u) (s' : Admitted u₁ b m.id u')
    (proposal : m.proposedAccount = .ok (some b.account)) : BornIn u' b.account m.id := by
  obtain ⟨c, hbody, hc⟩ := Message.proposedAccount_eq_ok_iff.1 proposal
  refine BornIn.mono ⟨⟨m, c, Dag.value?_insert_self s.messages, hbody, hc⟩, b.parents,
    s'.parentIds_eq, ?_⟩ s'.grows
  intro p hp hborn
  have hmem : p ∈ u₁.population := by
    rcases hp with rfl | rfl
    · exact s'.parents_mem.1
    · exact s'.parents_mem.2
  obtain ⟨parent, ha⟩ := Population.mem_iff_account?.1 hmem
  refine ⟨parent, ?_⟩
  rw [s.population] at ha hborn ⊢
  cases hd : parent.birthMessage with
  | none => exact absurd ((hu.genesis p).2 ⟨parent, ha, hd⟩) hborn
  | some d => exact ⟨d, ha, rfl, .of_insert s.messages (hu.birthMessage p parent d ha hd)⟩

theorem Admitted.provenance {message : Digest} (s : Admitted u b message u')
    (born : BornIn u' b.account message) (hu : Linked u) (h : Provenance u) : Provenance u' := by
  have hself := s.birthMessage_eq hu.message_id
  constructor
  · intro id a d ha hd
    rw [s.population.account?] at ha
    by_cases hid : id = b.account.id
    · rw [if_pos hid] at ha
      cases ha
      rw [hself] at hd
      cases hd
      exact born
    · rw [if_neg hid] at ha
      exact (h.born id a d ha hd).mono s.grows
  · intro id a id' a' d ha hd ha' hd'
    rw [s.population.account?] at ha ha'
    by_cases hid : id = b.account.id <;> by_cases hid' : id' = b.account.id
    · exact hid.trans hid'.symm
    · rw [if_pos hid] at ha
      rw [if_neg hid'] at ha'
      cases ha
      rw [hself] at hd
      cases hd
      exact absurd hd' (s.unborn id' a' ha')
    · rw [if_neg hid] at ha
      rw [if_pos hid'] at ha'
      cases ha'
      rw [hself] at hd'
      cases hd'
      exact absurd hd (s.unborn id a ha)
    · rw [if_neg hid] at ha
      rw [if_neg hid'] at ha'
      exact h.distinct id a id' a' d ha hd ha' hd'

theorem Step.provenance (s : Step u u') (hu : Linked u) (h : Provenance u) : Provenance u' := by
  cases s with
  | stay => exact h
  | record s => exact h.of_population_eq s.grows s.population
  | birth s proposal s' =>
    exact s'.provenance (s.bornIn hu s' proposal) (s.linked hu)
      (h.of_population_eq s.grows s.population)
  | anchor s => exact h.of_population_eq s.grows s.population

theorem provenance_seed {g : GenesisPair} {law : Law.Parameters} {p : Population}
    (h : Population.Founding g law p) : Provenance (seed p) := by
  have unborn : ∀ id a, p.account? id = some a → a.birthMessage = none := by
    intro id a ha
    obtain ⟨v, hv, _, rfl⟩ := Population.account?_eq_some_iff.1 ha
    rw [h.residents] at hv
    rcases List.mem_pair.1 hv with rfl | rfl
    · exact (Account.unborn_iff.1 g.unborn_second).2
    · exact (Account.unborn_iff.1 g.unborn_first).2
  constructor
  · intro id a d ha hd
    rw [unborn id a ha] at hd
    cases hd
  · intro id a _ _ d ha hd
    rw [unborn id a ha] at hd
    cases hd

theorem Reachable.provenance (h : Reachable u) : Provenance u :=
  h.induction (fun _ _ _ founding => provenance_seed founding)
    (fun _ _ evolved s ih => s.provenance evolved.linked ih)

/-- A stored message in which nobody was born. -/
structure Barren (u : Universe) (message : Digest) : Prop where
  stored : message ∈ u.messages
  unborn : ∀ id a, u.population.account? id = some a → a.birthMessage ≠ some message

/-- Only a message that has just been stored is a birth message of a new account. -/
theorem Step.barren (s : Step u u') {d : Digest} (h : Barren u d) : Barren u' d := by
  cases s with
  | stay => exact h
  | record s =>
    exact ⟨Dag.mem_insert_of_mem s.messages h.stored, s.population ▸ h.unborn⟩
  | @birth m u₁ _ b s proposal s' =>
    refine ⟨s'.messages ▸ Dag.mem_insert_of_mem s.messages h.stored, ?_⟩
    intro id a ha hd
    rw [s'.population.account?, s.population] at ha
    by_cases hid : id = b.account.id
    · rw [if_pos hid] at ha
      cases ha
      rw [Message.birthMessage_of_proposedAccount proposal] at hd
      cases hd
      exact s.fresh h.stored
    · rw [if_neg hid] at ha
      exact h.unborn id a ha hd
  | anchor s => exact ⟨s.messages ▸ h.stored, s.population ▸ h.unborn⟩

theorem Recorded.barren (s : Recorded u m u') (hu : Linked u) : Barren u' m.id :=
  ⟨s.stored, s.unborn hu⟩

theorem AddOutcome.of_rejected {r : Universe × Except UniverseError Unit} {d : Digest}
    {reason : BirthError} (h : AddOutcome u m r) (he : r.2 = .error (.birthRejected d reason)) :
    Recorded u m r.1 ∧ ∃ a, m.proposedAccount = .ok (some a) := by
  cases h with
  | refused early => cases he; exact absurd trivial early
  | text _ _ => cases he
  | rejected s proposal _ => exact ⟨s, _, proposal⟩
  | collided _ _ _ => cases he
  | born _ _ _ => cases he

theorem add_of_mem (h : m.id ∈ u.messages) : u.add m = (u, .error (.duplicateMessage m.id)) := by
  have hv : u.validate m = .error (.duplicateMessage m.id) := by rw [validate, if_pos h]
  rw [add, hv]

/-- Every account but the genesis accounts was born in a message of its own, after its parents. One
whose birth has been rejected is never admitted, and its message is refused as known. -/
theorem account_provenance (h : Reachable u) :
    (∀ id a, u.population.account? id = some a →
      ¬ (id = u.population.genesis.1 ∨ id = u.population.genesis.2) →
        a.id = id ∧ ∃ d, a.birthMessage = some d ∧ BornIn u a d) ∧
    (∀ id a id' a' d, u.population.account? id = some a → a.birthMessage = some d →
      u.population.account? id' = some a' → a'.birthMessage = some d → id = id') ∧
    ∀ m d reason, (u.add m).2 = .error (.birthRejected d reason) →
      ∃ a, m.proposedAccount = .ok (some a) ∧ ∀ calls,
        (∀ b, ((u.add m).1.run calls).population.account? a.id = some b → b.id = a.id ∧ b ≠ a) ∧
        ((u.add m).1.run calls).add m =
          ((u.add m).1.run calls, .error (.duplicateMessage m.id)) := by
  have linked := h.linked
  refine ⟨?_, h.provenance.distinct, ?_⟩
  · intro id a ha hborn
    refine ⟨linked.account_id id a ha, ?_⟩
    cases hd : a.birthMessage with
    | none => exact absurd ((linked.genesis id).2 ⟨a, ha, hd⟩) hborn
    | some d => exact ⟨d, rfl, h.provenance.born id a d ha hd⟩
  · intro m d reason he
    obtain ⟨s, a, proposal⟩ := (add_outcome linked m).of_rejected he
    refine ⟨a, proposal, ?_⟩
    intro calls
    have after : Reachable (u.add m).1 := h.perform (.add m)
    have barren : Barren ((u.add m).1.run calls) m.id :=
      after.run_induction (fun _ _ _ s => s.barren) (s.barren linked) calls
    refine ⟨?_, add_of_mem barren.stored⟩
    intro b hb
    refine ⟨(after.run calls).linked.account_id a.id b hb, ?_⟩
    rintro rfl
    exact barren.unborn b.id b hb (Message.birthMessage_of_proposedAccount proposal)

/-- Abel was born in his message. The birth for which Adam stands twice is rejected for ever, also
when Abel has been born. -/
theorem account_provenance_rejected : ∃ u a abel,
    create Sample.law Sample.genesis Sample.first = .ok u ∧
    (u.add Sample.birth).1.population.account? Sample.abelId = some abel ∧
    abel.id = Sample.abelId ∧ abel.birthMessage = some Sample.birth.id ∧
    BornIn (u.add Sample.birth).1 abel Sample.birth.id ∧
    (u.add Sample.rejected).2 =
      .error (.birthRejected Sample.rejected.id (.sameParent Sample.adamId)) ∧
    Sample.rejected.proposedAccount = .ok (some a) ∧
    (((u.add Sample.rejected).1.run [.add Sample.birth]).add Sample.rejected).2 =
      .error (.duplicateMessage Sample.rejected.id) := by
  obtain ⟨u, hu, hr, told⟩ := Sample.exists_founded
  have start : Reachable u := .create hu
  obtain ⟨a, proposal, final⟩ := (account_provenance start).2.2 _ _ _ hr
  obtain ⟨abel, found⟩ := Population.mem_iff_account?.1 (Sample.abelId_mem hu told)
  have new := Sample.abelId_not_mem hu told
  have carried : abel.birthMessage = some Sample.birth.id :=
    Message.birthMessage_of_proposedAccount
      ((add_outcome start.linked Sample.birth).proposedAccount_eq new found)
  have after : Reachable (u.add Sample.birth).1 := start.perform (.add Sample.birth)
  have born : ¬ (u.add Sample.birth).1.population.IsGenesis Sample.abelId := by
    intro founder
    obtain ⟨b, hb, unborn⟩ := (after.linked.genesis _).1 founder
    rw [found] at hb
    cases hb
    rw [carried] at unborn
    cases unborn
  obtain ⟨same, d, hd, bornIn⟩ := (account_provenance after).1 _ _ found born
  rw [carried] at hd
  cases hd
  exact ⟨u, a, abel, hu, found, same, carried, bornIn, hr, proposal,
    by rw [(final [.add Sample.birth]).2]⟩

end Universe

end Lineage
