import Lineage.Proofs.Dag.Agreement
import Lineage.Proofs.Universe.Transition

/-!
# Messages that nothing refers to

Let one universe hold what another one holds, and some more messages that have been counted but
whose births, if any, have not been admitted. A message that refers to none of these is judged
alike in both: they are no ancestors of it, so it has the same time in every time proof, and the
clock by which a birth is judged depends on this time and on the members alone. Both answer the
same, and afterwards one of them holds more than the other just as before.
-/
namespace Lineage

variable {extra : List Digest}

/-- A message that neither bears nor refers to one of some ids. -/
structure Message.Avoids (m : Message) (extra : List Digest) : Prop where
  id : m.id ∉ extra
  references : ∀ r ∈ m.references, r.message ∉ extra

namespace TimeProof

variable {t s : TimeProof} {m : Message}

/-- A time proof has the members of another one, and the same numbers but for some messages. -/
structure Surplus (extra : List Digest) (t s : TimeProof) : Prop where
  root : s.root = t.root
  anchor : s.anchor = t.anchor
  sequences : t.sequences.AgreeOff extra s.sequences
  memberships : s.memberships = t.memberships

theorem Surplus.refl (extra : List Digest) (t : TimeProof) : Surplus extra t t :=
  ⟨rfl, rfl, .refl _ _, rfl⟩

theorem Extension.surplus {n : Steps} (e : t.Extension m s n) : Surplus [m.id] t s :=
  ⟨e.root, e.anchor, .of_insert e.sequences, e.memberships⟩

theorem Surplus.sequence? (h : Surplus extra t s) {d : Digest} (hd : d ∉ extra) :
    s.sequence? d = t.sequence? d :=
  h.sequences.value? hd

theorem Surplus.member? (h : Surplus extra t s) (d : Digest) : s.member? d = t.member? d := by
  rw [TimeProof.member?, h.memberships, TimeProof.member?]

theorem mem_countedReferences {d : Digest} (hd : d ∈ t.countedReferences m) :
    ∃ r ∈ m.references, r.message = d := by
  rw [countedReferences, List.mem_filter, List.mem_map] at hd
  obtain ⟨⟨r, hr, hid⟩, _⟩ := hd
  exact ⟨r, List.mem_of_mem_filter hr, hid⟩

theorem Surplus.countedReferences (h : Surplus extra t s) (avoids : m.Avoids extra) :
    s.countedReferences m = t.countedReferences m := by
  refine List.filter_congr fun d hd => decide_eq_decide.2 (h.sequences.mem_iff ?_)
  obtain ⟨r, hr, rfl⟩ := List.mem_map.1 hd
  exact avoids.references r (List.mem_of_mem_filter hr)

theorem Surplus.extend (h : Surplus extra t s) (avoids : m.Avoids extra) :
    InStep (fun a b => Surplus extra a.1 b.1 ∧ b.2 = a.2) (t.extend m) (s.extend m) := by
  have clear : ∀ d ∈ t.countedReferences m, d ∉ extra := by
    intro d hd
    obtain ⟨r, hr, rfl⟩ := mem_countedReferences hd
    exact avoids.references r hr
  have hlatest : s.latest (t.countedReferences m) = t.latest (t.countedReferences m) :=
    latest_congr fun d hd => h.sequence? (clear d hd)
  rw [extend_eq, extend_eq, h.countedReferences avoids, hlatest]
  refine (h.sequences.insert avoids.id fun d hd => clear d (DigestSet.mem_ofList.1 hd)).map ?_
  intro g g' agree
  exact ⟨⟨h.root, h.anchor, agree, h.memberships⟩, rfl⟩

theorem Surplus.addMember (h : Surplus extra t s) (account : Digest) (parents : List Digest)
    (bornAt : Steps) : InStep (Surplus extra) (t.addMember account parents bornAt)
      (s.addMember account parents bornAt) := by
  rw [addMember_eq, addMember_eq, h.memberships]
  refine (InStep.refl _).map ?_
  rintro g _ rfl
  exact ⟨h.root, h.anchor, h.sequences, rfl⟩

end TimeProof

namespace Universe

variable {u v : Universe} {m : Message} {d : Digest}

/-- A universe holds what another one holds, and besides only messages with some ids. -/
structure Surplus (extra : List Digest) (u v : Universe) : Prop where
  messages : u.messages.AgreeOff extra v.messages
  absent : ∀ d ∈ extra, d ∉ u.messages
  population : v.population = u.population
  snapshots : v.snapshots = u.snapshots
  proofs : ∀ root, Option.Rel (TimeProof.Surplus extra) (u.proofs.get? root) (v.proofs.get? root)

/-- Two calls answer the same, and what is left of one holds more than what is left of the other. -/
structure SameOutcome (extra : List Digest) (r s : Universe × Except UniverseError Unit) :
    Prop where
  result : s.2 = r.2
  state : Surplus extra r.1 s.1

/-- A message that has been stored is all that is new. -/
theorem Recorded.surplus (s : Recorded u m v) : Surplus [m.id] u v := by
  refine ⟨.of_insert s.messages, ?_, s.population, s.snapshots, ?_⟩
  · intro d hd
    rw [List.mem_singleton.1 hd]
    exact s.fresh
  · intro root
    have same : ∀ x : Option TimeProof, Option.Rel (TimeProof.Surplus [m.id]) x x := by
      rintro (_ | t)
      · exact .none
      · exact .some (.refl _ t)
    rcases s.proofs with ⟨_, hp⟩ | ⟨t, t', n, ht, e, hp⟩
    · rw [hp]
      exact same _
    · rw [hp, DigestMap.get?_insert]
      by_cases hr : root = m.sender
      · rw [if_pos hr, hr, ht]
        exact .some e.surplus
      · rw [if_neg hr]
        exact same _

namespace Surplus

theorem insert_proof (h : Surplus extra u v) (root : Digest) {t s : TimeProof}
    (ts : TimeProof.Surplus extra t s) :
    Surplus extra { u with proofs := u.proofs.insert root t }
      { v with proofs := v.proofs.insert root s } := by
  refine ⟨h.messages, h.absent, h.population, h.snapshots, ?_⟩
  intro r
  show Option.Rel _ ((u.proofs.insert root t).get? r) ((v.proofs.insert root s).get? r)
  rw [DigestMap.get?_insert, DigestMap.get?_insert]
  by_cases hr : r = root
  · rw [if_pos hr, if_pos hr]
    exact .some ts
  · rw [if_neg hr, if_neg hr]
    exact h.proofs r

theorem checkReferences (h : Surplus extra u v) (m : Message) {rs : List Message.Reference}
    (clear : ∀ r ∈ rs, r.message ∉ extra) : v.checkReferences m rs = u.checkReferences m rs := by
  induction rs with
  | nil => rfl
  | cons r rs ih =>
    rw [List.forall_mem_cons] at clear
    rw [Universe.checkReferences, Universe.checkReferences, ih clear.2, checkReference,
      checkReference, h.messages.value? clear.1]

theorem validate (h : Surplus extra u v) (avoids : m.Avoids extra) :
    v.validate m = u.validate m := by
  have hmem : m.id ∈ v.messages ↔ m.id ∈ u.messages := h.messages.mem_iff avoids.id
  rw [Universe.validate, Universe.validate, h.population, h.checkReferences m avoids.references]
  simp only [hmem]

theorem store (h : Surplus extra u v) (avoids : m.Avoids extra) :
    InStep (Surplus extra) (u.store m) (v.store m) := by
  have clear : ∀ d ∈ DigestSet.ofList (m.references.map (·.message)), d ∉ extra := by
    intro d hd
    obtain ⟨r, hr, rfl⟩ := List.mem_map.1 (DigestSet.mem_ofList.1 hd)
    exact avoids.references r hr
  rw [Universe.store, Universe.store]
  have stored := h.messages.insert (v := ⟨m.id, m, .ofList (m.references.map (·.message))⟩)
    avoids.id clear
  rcases stored.error_or_ok with ⟨e, hu, hv⟩ | ⟨g, g', hu, hv, agree⟩
  · rw [hu, hv]
    exact .error _
  · rw [hu, hv]
    refine .ok ⟨agree, ?_, h.population, h.snapshots, h.proofs⟩
    intro d hd hin
    rcases (Dag.mem_insert hu).1 hin with rfl | hin
    · exact avoids.id hd
    · exact h.absent d hd hin

theorem count (h : Surplus extra u v) (avoids : m.Avoids extra) :
    InStep (Surplus extra) (u.count m) (v.count m) := by
  rw [Universe.count, Universe.count]
  rcases none_or_some_of_rel (h.proofs m.sender) with ⟨hu, hv⟩ | ⟨t, s, hu, hv, ts⟩
  · rw [hu, hv]
    exact .ok h
  · rw [hu, hv]
    rcases (ts.extend avoids).error_or_ok with ⟨e, ht, hs⟩ | ⟨⟨t', n⟩, ⟨s', n'⟩, ht, hs, ts', _⟩
    · simp only [ht, hs]
      exact .error _
    · simp only [ht, hs]
      exact .ok (h.insert_proof m.sender ts')

/-- What more is held is no ancestor of what both hold. -/
theorem causalTime (h : Surplus extra u v) {t s : TimeProof} (ts : TimeProof.Surplus extra t s)
    (hd : d ∈ u.messages) : s.causalTime v.messages d = t.causalTime u.messages d := by
  have clear : ∀ a ∈ u.messages, a ∉ extra := fun a ha hin => h.absent a hin ha
  exact TimeProof.causalTime_congr (h.messages.subset h.absent)
    (fun a ha => ts.sequence? (clear a ha)) hd

theorem verdicts (h : Surplus extra u v) (parents : Digest × Digest) (hd : d ∈ u.messages) :
    v.verdicts parents d = u.verdicts parents d := by
  refine DigestMap.map_entries_congr
    (f := fun _ (s : TimeProof) => (s.causalTime v.messages d, Law.checkParents v.population.law v.population
      parents (s.clockAt (s.causalTime v.messages d))))
    (g := fun _ (t : TimeProof) => (t.causalTime u.messages d, Law.checkParents u.population.law u.population
      parents (t.clockAt (t.causalTime u.messages d)))) ?_
  intro root
  rcases none_or_some_of_rel (h.proofs root) with ⟨hu, hv⟩ | ⟨t, s, hu, hv, ts⟩
  · rw [hu, hv]
    rfl
  · have hclock : ∀ now, s.clockAt now = t.clockAt now := by
      intro now
      rw [TimeProof.clockAt, TimeProof.clockAt, funext ts.member?]
    rw [hu, hv, Option.map_some, Option.map_some, h.population, h.causalTime ts hd, hclock]

theorem enroll (h : Surplus extra u v) (account : Digest) (parents : List Digest)
    (l : List (Digest × Steps)) :
    SameOutcome extra (u.enroll account parents l) (v.enroll account parents l) := by
  induction l generalizing u v with
  | nil => exact ⟨rfl, h⟩
  | cons x l ih =>
    obtain ⟨root, bornAt⟩ := x
    rw [Universe.enroll, Universe.enroll]
    rcases none_or_some_of_rel (h.proofs root) with ⟨hu, hv⟩ | ⟨t, s, hu, hv, ts⟩
    · rw [hu, hv]
      exact ih h
    · rw [hu, hv]
      rcases (ts.addMember account parents bornAt).error_or_ok with
        ⟨e, ht, hs⟩ | ⟨t', s', ht, hs, ts'⟩
      · simp only [ht, hs]
        exact ⟨rfl, h⟩
      · simp only [ht, hs]
        exact ih (h.insert_proof root ts')

theorem judge (h : Surplus extra u v) (a : Account) (hd : d ∈ u.messages) :
    SameOutcome extra (u.judge a d) (v.judge a d) := by
  rw [Universe.judge, Universe.judge, h.population]
  cases u.population.verifyBirth a with
  | error reason => exact ⟨rfl, h⟩
  | ok b =>
    simp only [h.verdicts b.parents hd]
    split
    · exact ⟨rfl, h⟩
    · cases u.population.insert b with
      | error e => exact ⟨rfl, h⟩
      | ok admitted =>
        have entered : Surplus extra { u with population := admitted.1 }
            { v with population := admitted.1 } :=
          ⟨h.messages, h.absent, rfl, h.snapshots, h.proofs⟩
        exact entered.enroll _ _ _

theorem mem_of_store {u' : Universe} (h : u.store m = .ok u') : m.id ∈ u'.messages := by
  unfold Universe.store at h
  split at h
  · next g hg => cases h; exact (Dag.mem_insert hg).2 (.inl rfl)
  · cases h

theorem messages_of_count {u' : Universe} (h : u.count m = .ok u') :
    u'.messages = u.messages := by
  unfold Universe.count at h
  split at h
  · cases h; rfl
  · split at h
    · cases h; rfl
    · cases h

/-- A message is taken in alike whether or not there are messages that it does not refer to. -/
theorem add (h : Surplus extra u v) (avoids : m.Avoids extra) :
    SameOutcome extra (u.add m) (v.add m) := by
  rw [Universe.add, Universe.add, h.validate avoids]
  cases u.validate m with
  | error e => exact ⟨rfl, h⟩
  | ok _ =>
    cases m.proposedAccount with
    | error e => exact ⟨rfl, h⟩
    | ok birth =>
      rcases (h.store avoids).error_or_ok with ⟨e, hu, hv⟩ | ⟨u₁, v₁, hu, hv, h₁⟩
      · simp only [hu, hv]
        exact ⟨rfl, h⟩
      · rcases (h₁.count avoids).error_or_ok with ⟨e, hu', hv'⟩ | ⟨u₂, v₂, hu', hv', h₂⟩
        · simp only [hu, hv, hu', hv']
          exact ⟨rfl, h₁⟩
        · simp only [hu, hv, hu', hv']
          cases birth with
          | none => exact ⟨rfl, h₂⟩
          | some a => exact h₂.judge a (messages_of_count hu' ▸ mem_of_store hu)

end Surplus

end Universe

end Lineage
