import Lineage.Proofs.Population.Admission
import Lineage.Proofs.Universe.Runs

/-!
# Nothing is lost, rewritten or dated anew

All that a universe holds grows by insertions: messages, accounts, snapshots, and in every time
proof the numbers and the members. A time proof never counts a message that was stored before and
passed over, nor takes in an account that was there before and left out. So a causal time, which is
not kept but worked out from ancestors and numbers, stays as well.
-/
namespace Lineage.Universe

variable {u u' u'' : Universe} {t t' t'' : TimeProof}

/-- How a time proof that is there goes on: what it takes in later is new to the universe `u`. -/
structure Continues (u : Universe) (t t' : TimeProof) : Prop where
  root : t'.root = t.root
  anchor : t'.anchor = t.anchor
  maxSequence : t.maxSequence ≤ t'.maxSequence
  sequences : t.sequences.GrowsTo t'.sequences
  memberships : t.memberships.GrowsTo t'.memberships
  counted : ∀ d ∈ u.messages, d ∈ t'.sequences → d ∈ t.sequences
  enrolled : ∀ d ∈ u.population, d ∈ t'.memberships → d ∈ t.memberships

/-- What becomes of a universe: it is the oldest part of a later one. -/
structure GrowsTo (u u' : Universe) : Prop where
  messages : u.messages.GrowsTo u'.messages
  residents : u.population.residents.GrowsTo u'.population.residents
  genesis_eq : u'.population.genesis = u.population.genesis
  law_eq : u'.population.law = u.population.law
  snapshots : u.snapshots.GrowsTo u'.snapshots
  proofs : ∀ root t, u.proofs.get? root = some t →
    ∃ t', u'.proofs.get? root = some t' ∧ Continues u t t'

theorem Continues.refl (u : Universe) (t : TimeProof) : Continues u t t :=
  ⟨rfl, rfl, UInt64.le_refl _, .refl _, .refl _, fun _ _ hd => hd, fun _ _ hd => hd⟩

theorem GrowsTo.refl (u : Universe) : GrowsTo u u :=
  ⟨.refl _, .refl _, rfl, rfl, .refl _, fun _ t ht => ⟨t, ht, .refl u t⟩⟩

theorem GrowsTo.population (h : GrowsTo u u') : u.population.GrowsTo u'.population :=
  ⟨h.residents, h.genesis_eq, h.law_eq⟩

theorem Continues.trans (grows : GrowsTo u u') (first : Continues u t t')
    (later : Continues u' t' t'') : Continues u t t'' where
  root := later.root.trans first.root
  anchor := later.anchor.trans first.anchor
  maxSequence := UInt64.le_trans first.maxSequence later.maxSequence
  sequences := first.sequences.trans later.sequences
  memberships := first.memberships.trans later.memberships
  counted := by
    intro d hd hin
    exact first.counted d hd (later.counted d (grows.messages.mem hd) hin)
  enrolled := by
    intro d hd hin
    exact first.enrolled d hd (later.enrolled d (grows.residents.mem hd) hin)

theorem GrowsTo.trans (first : GrowsTo u u') (later : GrowsTo u' u'') : GrowsTo u u'' where
  messages := first.messages.trans later.messages
  residents := first.residents.trans later.residents
  genesis_eq := later.genesis_eq.trans first.genesis_eq
  law_eq := later.law_eq.trans first.law_eq
  snapshots := first.snapshots.trans later.snapshots
  proofs := by
    intro root t ht
    obtain ⟨t', ht', one⟩ := first.proofs root t ht
    obtain ⟨t'', ht'', two⟩ := later.proofs root t' ht'
    exact ⟨t'', ht'', one.trans first two⟩

theorem Recorded.continues {m : Message} {sequence : Steps} (s : Recorded u m u')
    (e : t.Extension m t' sequence) : Continues u t t' where
  root := e.root
  anchor := e.anchor
  maxSequence := by
    rw [e.maxSequence, UInt64.le_iff_toNat_le, UInt64.toNat_max]
    exact Nat.le_max_left ..
  sequences := .of_insert e.sequences
  memberships := e.memberships ▸ .refl _
  counted := by
    intro d hd hin
    rcases e.mem_iff.1 hin with rfl | hin
    · exact absurd hd s.fresh
    · exact hin
  enrolled := by
    intro d _ hin
    exact e.memberships ▸ hin

theorem Recorded.grows {m : Message} (s : Recorded u m u') : GrowsTo u u' where
  messages := .of_insert s.messages
  residents := s.population ▸ .refl _
  genesis_eq := by rw [s.population]
  law_eq := by rw [s.population]
  snapshots := s.snapshots ▸ .refl _
  proofs := by
    intro root t ht
    obtain ⟨t', ht'⟩ := DigestMap.mem_iff_get?.1 (s.mem_proofs.2 (DigestMap.mem_iff_get?.2 ⟨t, ht⟩))
    obtain ⟨t₀, ht₀, hcase⟩ := s.get?_proofs ht'
    rw [ht] at ht₀
    cases ht₀
    refine ⟨t', ht', ?_⟩
    rcases hcase with ⟨_, rfl⟩ | ⟨_, sequence, e⟩
    · exact .refl u t'
    · exact s.continues e

theorem Admitted.continues {b : Population.CheckedBirth} {message : Digest} {bornAt : Steps}
    (s : Admitted u b message u')
    (e : t.Enrolment b.account.id [b.parents.1, b.parents.2] bornAt t') : Continues u t t' where
  root := e.root
  anchor := e.anchor
  maxSequence := e.maxSequence ▸ UInt64.le_refl _
  sequences := e.sequences ▸ .refl _
  memberships := .of_insert e.memberships
  counted := by
    intro d _ hin
    exact e.sequences ▸ hin
  enrolled := by
    intro d hd hin
    rcases e.mem_iff.1 hin with rfl | hin
    · exact absurd hd s.population.fresh
    · exact hin

theorem Admitted.grows {b : Population.CheckedBirth} {message : Digest}
    (s : Admitted u b message u') : GrowsTo u u' where
  messages := s.messages ▸ .refl _
  residents := .of_insert s.population.residents
  genesis_eq := s.population.genesis_eq
  law_eq := s.population.law_eq
  snapshots := s.snapshots ▸ .refl _
  proofs := by
    intro root t ht
    by_cases hv : u.verdict t b.parents message = .ok ()
    · obtain ⟨t', ht', e⟩ := s.proofs_ok root t ht hv
      exact ⟨t', ht', s.continues e⟩
    · exact ⟨t, s.proofs_error root t ht hv, .refl u t⟩

theorem Anchored.grows {root anchor : Digest} (s : Anchored u root anchor u') : GrowsTo u u' where
  messages := s.messages ▸ .refl _
  residents := s.population ▸ .refl _
  genesis_eq := by rw [s.population]
  law_eq := by rw [s.population]
  snapshots := .of_insert s.snapshots
  proofs := by
    intro r t ht
    obtain ⟨built, _, hp⟩ := s.proofs
    have hne : r ≠ root := by
      rintro rfl
      exact s.fresh (DigestMap.mem_iff_get?.2 ⟨t, ht⟩)
    exact ⟨t, by rw [hp, DigestMap.get?_insert_of_ne _ _ hne, ht], .refl u t⟩

theorem Transition.grows (s : Transition u u') : GrowsTo u u' := by
  cases s with
  | record s => exact s.grows
  | birth s => exact s.grows
  | anchor s => exact s.grows

theorem Evolves.grows (s : Evolves u u') : GrowsTo u u' := by
  induction s with
  | refl => exact .refl u
  | tail _ s ih => exact ih.trans s.grows

theorem Continues.sequence? (h : Continues u t t') {d : Digest} (hd : d ∈ u.messages) :
    t'.sequence? d = t.sequence? d := by
  by_cases hin : d ∈ t.sequences
  · exact h.sequences.value?_of_mem hin
  · have hout : d ∉ t'.sequences := fun h' => hin (h.counted d hd h')
    rw [TimeProof.sequence?, TimeProof.sequence?, Dag.value?_eq_none.2 hin,
      Dag.value?_eq_none.2 hout]

/-- No message that comes later is an ancestor of a stored one, and none that was stored gets a
number later. -/
theorem GrowsTo.causalTime (grows : GrowsTo u u') (h : Continues u t t') {d : Digest}
    (hd : d ∈ u.messages) : t'.causalTime u'.messages d = t.causalTime u.messages d :=
  TimeProof.causalTime_congr grows.messages.subset (fun _ ha => h.sequence? ha) hd

/-- All answers of a universe that a later one gives as well. -/
structure Kept (u u' : Universe) : Prop where
  messages : u.messages.ids <+: u'.messages.ids
  accounts : u.population.ids <+: u'.population.ids
  message? : ∀ id m, u.message? id = some m → u'.message? id = some m
  account? : ∀ id a, u.account? id = some a → u'.account? id = some a
  lifecycle? : ∀ id n, u.population.lifecycle? id = some n → u'.population.lifecycle? id = some n
  sequence? : ∀ root d n, u.sequence? root d = some n → u'.sequence? root d = some n
  causalTime? : ∀ root d n, u.causalTime? root d = some n → u'.causalTime? root d = some n
  proofs : ∀ root t, u.proofs.get? root = some t → ∃ t', u'.proofs.get? root = some t' ∧
    t'.anchor = t.anchor ∧
    (∀ d membership, t.member? d = some membership → t'.member? d = some membership) ∧
    ∀ d ∈ u.population, d ∉ t.memberships → d ∉ t'.memberships
  snapshot? : ∀ root s, u.snapshot? root = some s →
    u'.snapshot? root = some s ∧ u'.snapshotParents root = u.snapshotParents root
  maxSequence : ∀ sender, u.maxSequence sender ≤ u'.maxSequence sender

theorem GrowsTo.kept (h : GrowsTo u u') : Kept u u' where
  messages := h.messages.ids
  accounts := h.residents.ids
  message? := fun _ _ => h.messages.value?_mono
  account? := fun _ _ => h.population.account?_mono
  lifecycle? := fun _ _ => h.population.lifecycle?_mono
  sequence? := by
    intro root d n hn
    obtain ⟨t, ht, hseq⟩ := Option.bind_eq_some_iff.1 hn
    obtain ⟨t', ht', continues⟩ := h.proofs root t ht
    exact Option.bind_eq_some_iff.2 ⟨t', ht', continues.sequences.value?_mono hseq⟩
  causalTime? := by
    intro root d n hn
    obtain ⟨t, ht, htime⟩ := Option.bind_eq_some_iff.1 hn
    obtain ⟨t', ht', continues⟩ := h.proofs root t ht
    split at htime
    · next hd =>
      refine Option.bind_eq_some_iff.2 ⟨t', ht', ?_⟩
      rw [if_pos (h.messages.mem hd), h.causalTime continues hd]
      exact htime
    · cases htime
  proofs := by
    intro root t ht
    obtain ⟨t', ht', continues⟩ := h.proofs root t ht
    refine ⟨t', ht', continues.anchor, fun _ _ => continues.memberships.value?_mono, ?_⟩
    intro d hd hout hin
    exact hout (continues.enrolled d hd hin)
  snapshot? := by
    intro root s hs
    have hmem : root ∈ u.snapshots := Dag.mem_iff_value?.2 ⟨s, hs⟩
    exact ⟨h.snapshots.value?_mono hs, by
      rw [snapshotParents, h.snapshots.get?_of_mem hmem, snapshotParents]⟩
  maxSequence := by
    intro sender
    rw [Universe.maxSequence, Universe.maxSequence]
    cases ht : u.proofs.get? sender with
    | none => exact UInt64.le_iff_toNat_le.2 (Nat.zero_le _)
    | some t =>
      obtain ⟨t', ht', continues⟩ := h.proofs sender t ht
      rw [ht']
      exact continues.maxSequence

/-- Whatever calls come later, messages and accounts stay where they are, every answer stays the
same, nobody joins a time proof that has left the account out, and no greatest number decreases. -/
theorem kept_run (h : Reachable u) (calls : List Call) : Kept u (u.run calls) :=
  (h.evolves_run calls).grows.kept

/-- What could be asked before Abel's birth has the same answer after it. -/
theorem kept_run_abel : ∃ u, create Sample.law Sample.genesis Sample.first = .ok u ∧
    Kept u (u.run [.add Sample.birth]) ∧ Sample.isComplete (u.run [.add Sample.birth]) = true := by
  obtain ⟨u, hu, _, told⟩ := Sample.exists_founded
  exact ⟨u, hu, kept_run (.create hu) _, told⟩

end Lineage.Universe
