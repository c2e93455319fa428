import Lineage.Proofs.Universe.Reachable

/-!
# Runs of calls

A call takes a universe one step further: it leaves it as it was, stores a message, stores a
message and admits the account that is born in it, or sets up a time proof. In difference to the
changes that it is made of, a step never admits an account for a message that was there before.
Every reachable universe comes by steps from one without messages, and a run of calls takes it
further by steps.
-/
namespace Lineage.Universe

/-- What one call makes of a universe. -/
inductive Step (u : Universe) : Universe → Prop where
  | stay : Step u u
  | record {m : Message} {u' : Universe} (s : Recorded u m u') : Step u u'
  | birth {m : Message} {u₁ u' : Universe} {b : Population.CheckedBirth} (s : Recorded u m u₁)
      (proposal : m.proposedAccount = .ok (some b.account)) (s' : Admitted u₁ b m.id u') :
      Step u u'
  | anchor {root message : Digest} {u' : Universe} (s : Anchored u root message u') : Step u u'

/-- The universe after some calls, whatever these answer. -/
def run (u : Universe) : List Call → Universe
  | [] => u
  | c :: rest => (u.perform c).1.run rest

variable {u u' : Universe}

theorem AddOutcome.step {m : Message} {r : Universe × Except UniverseError Unit}
    (h : AddOutcome u m r) : Step u r.1 := by
  cases h with
  | refused _ => exact .stay
  | text s _ => exact .record s
  | rejected s _ _ => exact .record s
  | collided s _ _ => exact .record s
  | born s proposal s' => exact .birth s proposal s'

theorem AnchorOutcome.step {anchor : Digest} {r : Universe × Except UniverseError Unit}
    (h : AnchorOutcome u anchor r) : Step u r.1 := by
  cases h with
  | refused _ => exact .stay
  | anchored s => exact .anchor s

theorem step_perform (h : Linked u) (c : Call) : Step u (u.perform c).1 := by
  cases c with
  | add m => exact (add_outcome h m).step
  | addTimeProof anchor => exact (addTimeProof_outcome h anchor).step
  | addTimeProofFor sender =>
    obtain ⟨anchor, outcome⟩ := addTimeProofFor_outcome h sender
    exact outcome.step

theorem Step.evolves (s : Step u u') : Evolves u u' := by
  cases s with
  | stay => exact .refl
  | record s => exact .single (.record s)
  | birth s _ s' => exact .tail (.single (.record s)) (.birth s')
  | anchor s => exact .single (.anchor s)

/-- What holds without messages and is kept by every step holds of all reachable universes. -/
theorem Reachable.induction {motive : Universe → Prop}
    (seed : ∀ (g : GenesisPair) (law : Law.Parameters) (p : Population),
      Population.Founding g law p → motive (seed p))
    (step : ∀ u u', Evolved u → Step u u' → motive u → motive u') (h : Reachable u) :
    motive u := by
  induction h with
  | @create law genesis first u h =>
    obtain ⟨p, hp, rfl⟩ := create_eq_ok h
    have founding := Population.founding_of_ofGenesis hp
    have start : Evolved (Universe.seed p) := .seed founding
    have one := step_perform start.linked (.add first)
    have after := start.trans one.evolves
    have two := step_perform after.linked (.addTimeProof first.id)
    exact step _ _ after two (step _ _ start one (seed _ _ p founding))
  | perform h c ih => exact step _ _ h.evolved (step_perform h.linked c) ih

theorem Reachable.run (h : Reachable u) (calls : List Call) : Reachable (u.run calls) := by
  induction calls generalizing u with
  | nil => exact h
  | cons c rest ih => exact ih (h.perform c)

/-- What every step keeps holds after any run of calls. -/
theorem Reachable.run_induction {motive : Universe → Prop}
    (step : ∀ u u', Reachable u → Step u u' → motive u → motive u') (h : Reachable u)
    (start : motive u) (calls : List Call) : motive (u.run calls) := by
  induction calls generalizing u with
  | nil => exact start
  | cons c rest ih => exact ih (h.perform c) (step _ _ h (step_perform h.linked c) start)

theorem Evolved.evolves_run (h : Evolved u) (calls : List Call) : Evolves u (u.run calls) := by
  induction calls generalizing u with
  | nil => exact .refl
  | cons c rest ih =>
    have first := perform_evolves h.linked c
    exact first.trans (ih (h.trans first))

theorem Reachable.evolves_run (h : Reachable u) (calls : List Call) : Evolves u (u.run calls) :=
  h.evolved.evolves_run calls

end Lineage.Universe
