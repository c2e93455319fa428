import Lineage.Proofs.Universe.Reachable

/-!
# What a refusal leaves behind

A call that fails has changed nothing, unless it is the birth in a message that fails: then the
message has been stored and counted, and that is all. The refusals that would come between two
changes never come, and an account is refused as known only for another account of the same name.
-/
namespace Lineage.Universe

variable {u u' : Universe} {m : Message} {r : Universe × Except UniverseError Unit}
  {e : UniverseError}

/-- A message that is refused has changed nothing, or its birth has been refused after it was
stored, which is for one of two reasons. -/
theorem AddOutcome.of_error (h : AddOutcome u m r) (he : r.2 = .error e) :
    (r.1 = u ∧ ¬ e.IsLate) ∨ (Recorded u m r.1 ∧ ((∃ reason, e = .birthRejected m.id reason) ∨
      ∃ a, m.proposedAccount = .ok (some a) ∧ a.id ∈ u.population ∧
        e = .population (.alreadyExists a.id))) := by
  cases h with
  | refused early => cases he; exact .inl ⟨rfl, early⟩
  | text _ _ => cases he
  | rejected s _ reason => cases he; exact .inr ⟨s, .inl ⟨reason, rfl⟩⟩
  | @collided _ a s proposal known => cases he; exact .inr ⟨s, .inr ⟨a, proposal, known, rfl⟩⟩
  | born _ _ _ => cases he

/-- An account that stands in the way of one that a new message proposes is another one: the birth
message of the proposed account has only just been stored. -/
theorem Recorded.collision (s : Recorded u m u') (h : Linked u) {a : Account}
    (proposal : m.proposedAccount = .ok (some a)) (known : a.id ∈ u.population) :
    ∃ b, u.population.account? a.id = some b ∧ b.id = a.id ∧ b ≠ a := by
  obtain ⟨b, hb⟩ := Population.mem_iff_account?.1 known
  refine ⟨b, hb, h.account_id a.id b hb, ?_⟩
  rintro rfl
  have hbirth := Message.birthMessage_of_proposedAccount proposal
  exact s.fresh (h.birthMessage b.id b m.id hb hbirth)

theorem AnchorOutcome.of_error {anchor : Digest} (h : AnchorOutcome u anchor r)
    (he : r.2 = .error e) : r.1 = u ∧ ¬ e.IsLate := by
  cases h with
  | refused early => cases he; exact ⟨rfl, early⟩
  | anchored _ => cases he

/-- Taking in a message is atomic but for a message whose birth is rejected, or collides with an
account of the same name; setting up a time proof is atomic. -/
theorem error_atomic (h : Reachable u) :
    (∀ m e, (u.add m).2 = .error e → (∀ d reason, e ≠ .birthRejected d reason) →
      (∀ d, e ≠ .population (.alreadyExists d)) → (u.add m).1 = u) ∧
    (∀ m d reason, (u.add m).2 = .error (.birthRejected d reason) →
      d = m.id ∧ Recorded u m (u.add m).1) ∧
    (∀ m g, (u.add m).2 ≠ .error (.graph g)) ∧
    (∀ m p, (u.add m).2 = .error (.population p) → Recorded u m (u.add m).1 ∧
      ∃ a b, p = .alreadyExists a.id ∧ m.proposedAccount = .ok (some a) ∧
        u.population.account? a.id = some b ∧ b.id = a.id ∧ b ≠ a) ∧
    (∀ anchor e, (u.addTimeProof anchor).2 = .error e →
      (u.addTimeProof anchor).1 = u ∧ ¬ e.IsLate) ∧
    (∀ sender e, (u.addTimeProofFor sender).2 = .error e →
      (u.addTimeProofFor sender).1 = u ∧ ¬ e.IsLate) := by
  have linked := h.linked
  refine ⟨?_, ?_, ?_, ?_, ?_, ?_⟩
  · intro m e he notRejected notKnown
    rcases (add_outcome linked m).of_error he with ⟨same, _⟩ | ⟨_, ⟨reason, rfl⟩ | ⟨a, _, _, rfl⟩⟩
    · exact same
    · exact absurd rfl (notRejected m.id reason)
    · exact absurd rfl (notKnown a.id)
  · intro m d reason he
    rcases (add_outcome linked m).of_error he with ⟨_, early⟩ | ⟨s, ⟨_, heq⟩ | ⟨_, _, _, heq⟩⟩
    · exact absurd trivial early
    · cases heq
      exact ⟨rfl, s⟩
    · cases heq
  · intro m g he
    rcases (add_outcome linked m).of_error he with ⟨_, early⟩ | ⟨_, ⟨_, heq⟩ | ⟨_, _, _, heq⟩⟩
    · exact early trivial
    · cases heq
    · cases heq
  · intro m p he
    rcases (add_outcome linked m).of_error he with
      ⟨_, early⟩ | ⟨s, ⟨_, heq⟩ | ⟨a, proposal, known, heq⟩⟩
    · exact absurd trivial early
    · cases heq
    · cases heq
      obtain ⟨b, hb⟩ := s.collision linked proposal known
      exact ⟨s, a, b, rfl, proposal, hb⟩
  · intro anchor e he
    exact (addTimeProof_outcome linked anchor).of_error he
  · intro sender e he
    obtain ⟨anchor, outcome⟩ := addTimeProofFor_outcome linked sender
    exact outcome.of_error he

/-- The birth for which Adam stands twice is rejected, and its message stays. -/
theorem error_atomic_rejected : ∃ u, create Sample.law Sample.genesis Sample.first = .ok u ∧
    (u.add Sample.rejected).2 =
      .error (.birthRejected Sample.rejected.id (.sameParent Sample.adamId)) ∧
    Recorded u Sample.rejected (u.add Sample.rejected).1 := by
  obtain ⟨u, hu, hr, _⟩ := Sample.exists_founded
  exact ⟨u, hu, hr, ((error_atomic (.create hu)).2.1 _ _ _ hr).2⟩

end Lineage.Universe
