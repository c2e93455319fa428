import Lineage.Proofs.Law.Windows
import Lineage.Proofs.Universe.Reachable

/-!
# The birth law holds in every time proof

A birth is judged once, against the accounts that are there at that moment. In the time proofs
where it passes, it is at the right distance from all births that its parents have there. Any
later birth to one of them is judged against it in turn, so the law holds of every pair for ever.
Only the accounts of a snapshot are members without having been judged.
-/
namespace Lineage.Universe

variable {u u' : Universe}

/-- A birth at some time in a time proof is in the lifetime of a parent from its age of consent on,
and a quarter away from the births of all its other children. -/
structure Timely (p : Population) (t : TimeProof) (child parent : Digest) (bornAt : Steps) :
    Prop where
  aged : ∃ membership lifecycle, t.member? parent = some membership ∧
    p.lifecycle? parent = some lifecycle ∧
    membership.bornAt.toNat + p.law.quarter.toNat ≤ bornAt.toNat ∧
    bornAt.toNat < membership.bornAt.toNat + lifecycle.toNat
  spaced : ∀ other membership q, other ≠ child → t.member? other = some membership →
    p.HasParents other q → (parent = q.1 ∨ parent = q.2) →
    p.law.quarter.toNat ≤ ((bornAt.toNat : Int) - membership.bornAt.toNat).natAbs

/-- All members of a time proof but those of its snapshot were born in time. -/
structure Lawful (u : Universe) : Prop where
  quarter : 1 ≤ u.population.law.quarter.toNat
  timely : ∀ root t s, u.proofs.get? root = some t → u.snapshot? root = some s →
    ∀ c membership, t.member? c = some membership → c ∉ s →
      ∃ q, u.population.HasParents c q ∧ ∀ parent, parent = q.1 ∨ parent = q.2 →
        Timely u.population t c parent membership.bornAt

theorem lawful_seed {g : GenesisPair} {law : Law.Parameters} {p : Population}
    (h : Population.Founding g law p) : Lawful (seed p) where
  quarter := by
    rw [seed_population, h.law_eq]
    exact Law.Parameters.quarter_pos h.valid
  timely := by
    intro root t s ht
    cases ht

theorem Timely.congr {p : Population} {t t' : TimeProof} {child parent : Digest} {bornAt : Steps}
    (h : Timely p t child parent bornAt) (hm : t'.memberships = t.memberships) :
    Timely p t' child parent bornAt := by
  have hmember : t'.member? = t.member? := by
    funext d
    rw [TimeProof.member?, TimeProof.member?, hm]
  exact ⟨hmember ▸ h.aged, hmember ▸ h.spaced⟩

theorem Recorded.lawful {m : Message} (s : Recorded u m u') (h : Lawful u) : Lawful u' := by
  refine ⟨s.population ▸ h.quarter, ?_⟩
  intro root t' snapshot ht' hs c membership hc hout
  rw [snapshot?, s.snapshots] at hs
  rw [s.population]
  obtain ⟨t, ht, hcase⟩ := s.get?_proofs ht'
  have hm : t'.memberships = t.memberships := by
    rcases hcase with ⟨_, rfl⟩ | ⟨_, sequence, hext⟩
    · rfl
    · exact hext.memberships
  have hc' : t.member? c = some membership := by
    rw [TimeProof.member?, ← hm]
    exact hc
  obtain ⟨q, hq, htimely⟩ := h.timely root t snapshot ht hs c membership hc' hout
  exact ⟨q, hq, fun parent hp => (htimely parent hp).congr hm⟩

/-- Who is a member where a time proof is set up is in its snapshot. -/
theorem Anchored.lawful {root anchor : Digest} (s : Anchored u root anchor u') (hu : Linked u)
    (h : Lawful u) : Lawful u' := by
  refine ⟨s.population ▸ h.quarter, ?_⟩
  intro r t' snapshot ht' hs c membership hc hout
  rw [s.population]
  obtain ⟨t, built, hproofs⟩ := s.built hu
  rw [snapshot?, Dag.value?_insert s.snapshots] at hs
  rw [hproofs, DigestMap.get?_insert] at ht'
  by_cases hr : r = root
  · rw [if_pos hr] at ht' hs
    cases ht'
    cases hs
    have hmember : c ∈ t'.members := Dag.mem_ids.2 (Dag.mem_iff_value?.2 ⟨membership, hc⟩)
    rw [built.members] at hmember
    exact absurd (DigestSet.mem_ofList.2 hmember) hout
  · rw [if_neg hr] at ht' hs
    exact h.timely r t' snapshot ht' hs c membership hc hout

section Birth

variable {b : Population.CheckedBirth} {message : Digest} {t t' : TimeProof}

/-- The births that a parent has had are a quarter away from a birth that passes. -/
theorem Linked.spaced_of_verdict (hu : Linked u) (hv : u.verdict t b.parents message = .ok ())
    {parent other : Digest} (hp : parent = b.parents.1 ∨ parent = b.parents.2)
    {membership : Membership} (hm : t.member? other = some membership) {q : Digest × Digest}
    (hq : u.population.HasParents other q) (hor : parent = q.1 ∨ parent = q.2) :
    u.population.law.quarter.toNat ≤
      (((t.causalTime u.messages message).toNat : Int) - membership.bornAt.toNat).natAbs := by
  obtain ⟨born, lifecycle, window⟩ := Law.checkParents_eq_ok_iff.1 hv parent hp
  refine window.spaced other (hu.mem_children.2 ⟨q, hq, hor⟩) membership.bornAt ?_
  simp only [TimeProof.clockAt, hm, Option.map_some]

/-- The new account was born in time. -/
theorem Admitted.timely_self (s : Admitted u b message u') (hu : Linked u) (h : Lawful u)
    (hv : u.verdict t b.parents message = .ok ())
    (keep : ∀ d, d ≠ b.account.id → t'.member? d = t.member? d) {parent : Digest}
    (hp : parent = b.parents.1 ∨ parent = b.parents.2) :
    Timely u'.population t' b.account.id parent (t.causalTime u.messages message) := by
  have hmem : parent ∈ u.population := by
    rcases hp with rfl | rfl
    · exact s.parents_mem.1
    · exact s.parents_mem.2
  have hne : parent ≠ b.account.id := by
    rintro rfl
    exact s.population.fresh hmem
  constructor
  · obtain ⟨born, lifecycle, window⟩ := Law.checkParents_eq_ok_iff.1 hv parent hp
    obtain ⟨membership, hm, rfl⟩ := Option.map_eq_some_iff.1 window.bornAt
    refine ⟨membership, lifecycle, (keep parent hne).trans hm, ?_, ?_, window.now_lt⟩
    · rw [s.population.lifecycle?_of_mem hmem]
      exact window.lifecycle?
    · rw [s.population.law_eq]
      exact window.consent h.quarter
  · intro other membership q hother hm hq hor
    rw [keep other hother] at hm
    rw [s.population.law_eq]
    rcases (s.population.hasParents s.parentIds_eq).1 hq with ⟨rfl, _⟩ | hq
    · exact absurd rfl hother
    · exact hu.spaced_of_verdict hv hp hm hq hor

/-- What was born in time stays so, because the new account was judged against it. -/
theorem Admitted.timely_of_ne (s : Admitted u b message u') (hu : Linked u) {root : Digest}
    (ht : u.proofs.get? root = some t)
    (keep : ∀ d, d ≠ b.account.id → t'.member? d = t.member? d)
    (hself : ∀ membership, t'.member? b.account.id = some membership →
      u.verdict t b.parents message = .ok () ∧
        membership = ⟨t.causalTime u.messages message⟩)
    {c parent : Digest} {membership : Membership} (hc : t.member? c = some membership)
    {q : Digest × Digest} (hq : u.population.HasParents c q)
    (hp : parent = q.1 ∨ parent = q.2)
    (htimely : Timely u.population t c parent membership.bornAt) :
    Timely u'.population t' c parent membership.bornAt := by
  obtain ⟨⟨parental, lifecycle, hm, hlife, hadult, halive⟩, hspaced⟩ := htimely
  have hmem : parent ∈ u.population :=
    hu.members root t parent ht (Dag.mem_iff_value?.2 ⟨parental, hm⟩)
  have hne : parent ≠ b.account.id := by
    rintro rfl
    exact s.population.fresh hmem
  constructor
  · refine ⟨parental, lifecycle, (keep parent hne).trans hm, ?_, ?_, halive⟩
    · rw [s.population.lifecycle?_of_mem hmem]
      exact hlife
    · rw [s.population.law_eq]
      exact hadult
  · intro other later r hother hlater hr hor
    rw [s.population.law_eq]
    by_cases hnew : other = b.account.id
    · subst hnew
      obtain ⟨hv, rfl⟩ := hself later hlater
      rcases (s.population.hasParents s.parentIds_eq).1 hr with ⟨_, rfl⟩ | ⟨a, ha, _⟩
      · have := hu.spaced_of_verdict hv hor hc hq hp
        rw [← Int.natAbs_neg, Int.neg_sub]
        exact this
      · rw [Population.account?_eq_none.2 s.population.fresh] at ha
        cases ha
    · rw [keep other hnew] at hlater
      rcases (s.population.hasParents s.parentIds_eq).1 hr with ⟨hid, _⟩ | hr
      · exact absurd hid hnew
      · exact hspaced other later r hother hlater hr hor

theorem Admitted.lawful (s : Admitted u b message u') (hu : Linked u) (h : Lawful u) :
    Lawful u' := by
  refine ⟨s.population.law_eq ▸ h.quarter, ?_⟩
  intro root t' snapshot ht' hs c membership hc hout
  rw [snapshot?, s.snapshots] at hs
  obtain ⟨t, ht, _, keep, hself⟩ := s.member? hu ht'
  by_cases hnew : c = b.account.id
  · subst hnew
    obtain ⟨hv, rfl⟩ := hself membership hc
    refine ⟨b.parents, (s.population.hasParents s.parentIds_eq).2 (.inl ⟨rfl, rfl⟩), ?_⟩
    intro parent hp
    exact s.timely_self hu h hv keep hp
  · rw [keep c hnew] at hc
    obtain ⟨q, hq, htimely⟩ := h.timely root t snapshot ht hs c membership hc hout
    refine ⟨q, (s.population.hasParents s.parentIds_eq).2 (.inr hq), ?_⟩
    intro parent hp
    exact s.timely_of_ne hu ht keep hself hc hq hp (htimely parent hp)

end Birth

theorem Evolved.lawful (h : Evolved u) : Lawful u := by
  induction h with
  | seed h => exact lawful_seed h
  | step h s ih =>
    cases s with
    | record s => exact s.lawful ih
    | birth s => exact s.lawful h.linked ih
    | anchor s => exact s.lawful h.linked ih

/-- Every member of a time proof that is not in its snapshot was born of two parents in the window
of each, and a quarter away from all other children that either of them has there. -/
theorem birth_windows (h : Reachable u) {root : Digest} {t : TimeProof}
    (ht : u.proofs.get? root = some t) :
    u.population.law.quarter.toNat = u.population.law.minLifetime.toNat / 4 ∧
    1 ≤ u.population.law.quarter.toNat ∧
    ∃ s, u.snapshot? root = some s ∧ ∀ c membership, t.member? c = some membership → c ∉ s →
      ∃ q, u.population.HasParents c q ∧ ∀ parent, parent = q.1 ∨ parent = q.2 →
        Timely u.population t c parent membership.bornAt := by
  have lawful := h.evolved.lawful
  have hmem : root ∈ u.snapshots :=
    (h.linked.snapshots root).2 (DigestMap.mem_iff_get?.2 ⟨t, ht⟩)
  obtain ⟨s, hs⟩ := Dag.mem_iff_value?.1 hmem
  exact ⟨Law.Parameters.toNat_quarter _, lawful.quarter, s, hs,
    lawful.timely root t s ht hs⟩

/-- Abel was not in the snapshot when Adam's messages were first counted. -/
theorem birth_windows_abel : ∃ u t s, Reachable u ∧ u.proofs.get? Sample.adamId = some t ∧
    u.snapshot? Sample.adamId = some s ∧ Sample.abelId ∉ s ∧
    t.member? Sample.abelId = some ⟨2⟩ ∧
    ∃ q, u.population.HasParents Sample.abelId q ∧ ∀ parent, parent = q.1 ∨ parent = q.2 →
      Timely u.population t Sample.abelId parent 2 := by
  obtain ⟨u, t, s, hu, ht, hm, hs, hout, _⟩ := Sample.exists_family
  obtain ⟨_, _, s', hs', timely⟩ := birth_windows hu ht
  rw [hs] at hs'
  cases hs'
  exact ⟨u, t, s, hu, ht, hs, hout, hm, timely Sample.abelId ⟨2⟩ hm hout⟩

end Lineage.Universe
