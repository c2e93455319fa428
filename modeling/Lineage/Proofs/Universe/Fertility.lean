import Lineage.Proofs.Dag.Kinship
import Lineage.Proofs.Universe.BirthWindows
import Lineage.Proofs.Universe.Creation
import Mathlib.Data.List.Perm.Subperm

/-!
# How many children an account may have

In a time proof the children of an account are born during its life, from its age of consent on,
and a quarter of the minimum lifetime apart. Such times fall into different quarters of the life,
the first of which is not used, so there are no more children than quarters after the first. It
does not matter in which order the births were admitted, nor how many were rejected.
-/
namespace Lineage

/-- Times a gap apart in one span, the first gap of which is left out, are no more than the gaps
that fit into the rest of the span. -/
theorem length_le_of_spaced {α : Type} {l : List α} (time : α → Nat) {gap : Nat} (start : Nat)
    {span : Nat} (distinct : l.Nodup) (within : ∀ a ∈ l, start + gap ≤ time a ∧ time a < start + span)
    (spaced : ∀ a ∈ l, ∀ b ∈ l, a ≠ b → gap ≤ ((time a : Int) - time b).natAbs) (pos : 0 < gap) :
    l.length ≤ (span - 1) / gap := by
  let slot (a : α) : Nat := (time a - start) / gap
  have apart : ∀ a ∈ l, ∀ b ∈ l, slot a = slot b → a = b := by
    intro a ha b hb same
    by_contra ne
    have far := spaced a ha b hb ne
    have ea : gap * slot a + (time a - start) % gap = time a - start := Nat.div_add_mod _ _
    have eb : gap * slot b + (time b - start) % gap = time b - start := Nat.div_add_mod _ _
    rw [← same] at eb
    have ra : (time a - start) % gap < gap := Nat.mod_lt _ pos
    have rb : (time b - start) % gap < gap := Nat.mod_lt _ pos
    have wa := within a ha
    have wb := within b hb
    omega
  have slots : (l.map slot).Nodup := List.Nodup.map_on apart distinct
  have places : l.map slot ⊆ List.range' 1 ((span - 1) / gap) := by
    intro k hk
    obtain ⟨a, ha, rfl⟩ := List.mem_map.1 hk
    have w := within a ha
    have low : 1 ≤ slot a := (Nat.one_le_div_iff pos).2 (by omega)
    have high : slot a ≤ (span - 1) / gap := Nat.div_le_div_right (by omega)
    rw [List.mem_range'_1]
    omega
  have few := (List.subperm_of_subset slots places).length_le
  rwa [List.length_map, List.length_range'] at few

namespace Universe

variable {u : Universe} {root parent child : Digest} {t : TimeProof}

/-- Whether an account is a member of the time proof of a root. -/
def isMember (u : Universe) (root account : Digest) : Bool :=
  (u.proofs.get? root).any fun t => decide (account ∈ t.memberships)

/-- Whether an account was noted when the time proof of a root was set up. -/
def isNoted (u : Universe) (root account : Digest) : Bool :=
  (u.snapshot? root).any fun s => decide (account ∈ s)

/-- The children of an account that were born by the law of a time proof: those that are members,
without the ones that were noted when it was set up. -/
def offspring (u : Universe) (root parent : Digest) : List Digest :=
  (u.population.children parent).filter fun child => u.isMember root child && !u.isNoted root child

theorem mem_offspring_iff (ht : u.proofs.get? root = some t) :
    child ∈ u.offspring root parent ↔ child ∈ u.population.children parent ∧
      child ∈ t.memberships ∧ ∀ s, u.snapshot? root = some s → child ∉ s := by
  rw [offspring, List.mem_filter, isMember, isNoted, ht]
  cases u.snapshot? root <;> simp

theorem nodup_offspring (u : Universe) (root parent : Digest) : (u.offspring root parent).Nodup :=
  (Dag.nodup_children _ parent).sublist List.filter_sublist

/-- The offspring of an account was born in its window. -/
theorem Evolved.timely_of_mem_offspring (h : Evolved u) (ht : u.proofs.get? root = some t)
    (hc : child ∈ u.offspring root parent) : ∃ membership, t.member? child = some membership ∧
      Timely u.population t child parent membership.bornAt := by
  obtain ⟨hchild, hmem, hout⟩ := (mem_offspring_iff ht).1 hc
  obtain ⟨q, hq, hor⟩ := h.linked.mem_children.1 hchild
  obtain ⟨membership, hm⟩ := Dag.mem_iff_value?.1 hmem
  obtain ⟨s, hs⟩ := Dag.mem_iff_value?.1
    ((h.linked.snapshots root).2 (DigestMap.mem_iff_get?.2 ⟨t, ht⟩))
  obtain ⟨r, hr, timely⟩ := h.lawful.timely root t s ht hs child membership hm (hout s hs)
  exact ⟨membership, hm, timely parent (hq.unique hr ▸ hor)⟩

/-- The times of birth of the offspring are a quarter apart, in the life of the parent without its
first quarter. -/
theorem Evolved.length_offspring_le (h : Evolved u) (ht : u.proofs.get? root = some t)
    {membership : Membership} (hp : t.member? parent = some membership) {lifecycle : Steps}
    (hl : u.population.lifecycle? parent = some lifecycle) :
    (u.offspring root parent).length ≤
      (lifecycle.toNat - 1) / u.population.law.quarter.toNat := by
  let bornAt (child : Digest) : Nat := ((t.member? child).map (·.bornAt.toNat)).getD 0
  refine length_le_of_spaced bornAt membership.bornAt.toNat (u.nodup_offspring root parent) ?_ ?_
    h.lawful.quarter
  · intro c hc
    obtain ⟨born, hm, timely⟩ := h.timely_of_mem_offspring ht hc
    obtain ⟨membership', lifecycle', hp', hl', adult, alive⟩ := timely.aged
    rw [hp, Option.some.injEq] at hp'
    rw [hl, Option.some.injEq] at hl'
    subst hp' hl'
    simp only [bornAt, hm, Option.map_some, Option.getD_some]
    exact ⟨adult, alive⟩
  · intro c hc d hd ne
    obtain ⟨born, hm, timely⟩ := h.timely_of_mem_offspring ht hc
    obtain ⟨other, ho, -⟩ := h.timely_of_mem_offspring ht hd
    obtain ⟨q, hq, hor⟩ := h.linked.mem_children.1 ((mem_offspring_iff ht).1 hd).1
    simp only [bornAt, hm, ho, Option.map_some, Option.getD_some]
    exact timely.spaced d other q ne.symm ho hq hor

/-- A member that lives for `lifecycle` steps has at most `(lifecycle - 1) / quarter` children who
became members after the time proof was set up, each of which is listed once. -/
theorem fertility_bound (h : Reachable u) (ht : u.proofs.get? root = some t)
    (hp : parent ∈ t.memberships) :
    (u.offspring root parent).Nodup ∧
    (∀ child, child ∈ u.offspring root parent ↔ child ∈ u.population.children parent ∧
      child ∈ t.memberships ∧ ∀ s, u.snapshot? root = some s → child ∉ s) ∧
    0 < u.population.law.minLifetime.toNat / 4 ∧
    ∃ lifecycle, u.population.lifecycle? parent = some lifecycle ∧
      (u.offspring root parent).length ≤
        (lifecycle.toNat - 1) / (u.population.law.minLifetime.toNat / 4) := by
  have evolved := h.evolved
  obtain ⟨membership, hm⟩ := Dag.mem_iff_value?.1 hp
  obtain ⟨lifecycle, hl⟩ :=
    Population.mem_iff_lifecycle?.1 (evolved.linked.members root t parent ht hp)
  have bound := evolved.length_offspring_le ht hm hl
  have quarter := evolved.lawful.quarter
  rw [Law.Parameters.toNat_quarter] at bound quarter
  exact ⟨u.nodup_offspring root parent, fun _ => mem_offspring_iff ht, quarter, lifecycle, hl, bound⟩

/-- Abel is one of the children that Adam may have. -/
theorem fertility_bound_adam : ∃ u t lifecycle, Reachable u ∧
    u.proofs.get? Sample.adamId = some t ∧ Sample.adamId ∈ t.memberships ∧
    u.population.lifecycle? Sample.adamId = some lifecycle ∧
    Sample.abelId ∈ u.offspring Sample.adamId Sample.adamId ∧
    (u.offspring Sample.adamId Sample.adamId).length ≤
      (lifecycle.toNat - 1) / (u.population.law.minLifetime.toNat / 4) := by
  obtain ⟨u, hu, -, told⟩ := Sample.exists_founded
  obtain ⟨t, s, ht, hm, hs, hout, -⟩ := Sample.found_of_isComplete told
  have reachable : Reachable (u.add Sample.birth).1 := .perform (.create hu) (.add Sample.birth)
  have parents := Sample.hasParents_abel hu told
  have child : Sample.abelId ∈ (u.add Sample.birth).1.population.children Sample.adamId :=
    reachable.linked.mem_children.2 ⟨_, parents, .inl rfl⟩
  have noted : ∀ s, (u.add Sample.birth).1.snapshot? Sample.adamId = some s → Sample.abelId ∉ s := by
    intro s' hs'
    rw [hs] at hs'
    cases hs'
    exact hout
  have born : Sample.abelId ∈ (u.add Sample.birth).1.offspring Sample.adamId Sample.adamId :=
    (mem_offspring_iff ht).2 ⟨child, Dag.mem_iff_value?.2 ⟨_, hm⟩, noted⟩
  obtain ⟨_, -, timely⟩ := reachable.evolved.timely_of_mem_offspring ht born
  obtain ⟨membership, _, hp, -⟩ := timely.aged
  have member : Sample.adamId ∈ t.memberships := Dag.mem_iff_value?.2 ⟨membership, hp⟩
  obtain ⟨-, -, -, lifecycle, hl, bound⟩ := fertility_bound reachable ht member
  exact ⟨_, t, lifecycle, reachable, ht, member, hl, born, bound⟩

end Universe

end Lineage
