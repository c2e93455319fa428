import Lineage.Proofs.Population.History
import Lineage.Proofs.Universe.Recounting
import Lineage.Proofs.Universe.Runs

/-!
# Who descends from whom

Everybody but the genesis accounts was born to two accounts that were there before, and the rules
that held at the birth hold ever after. So everybody else descends from both genesis accounts, and
nobody is born to one of them and somebody else: that one would be an ancestor of the other parent.
-/
namespace Lineage

namespace Universe

open Population (History)

variable {u u' : Universe} {g : GenesisPair} {law : Law.Parameters} {past : List Population}

theorem Evolves.exists_history (s : Evolves u u') (h : History g law past u.population) :
    ∃ past', History g law past' u'.population := by
  induction s with
  | refl => exact ⟨past, h⟩
  | tail _ s ih =>
    obtain ⟨past', h'⟩ := ih
    cases s with
    | record s => exact ⟨past', s.population ▸ h'⟩
    | birth s =>
      have next := h'.insert (List.mem_cons_self ..) s.checked
      rw [Population.insert_eq_ok_iff.2 ⟨rfl, s.population⟩] at next
      exact ⟨_, next⟩
    | anchor s => exact ⟨past', s.population ▸ h'⟩

/-- The population of a universe has come about by calls on births that had been checked. -/
theorem Reachable.exists_history (h : Reachable u) :
    ∃ g law past, History g law past u.population := by
  induction h with
  | @create law g first u h =>
    obtain ⟨p, hp, rfl⟩ := create_eq_ok h
    have start : Evolved (seed p) := .seed (Population.founding_of_ofGenesis hp)
    have s := start.evolves_run [.add first, .addTimeProof first.id]
    obtain ⟨past, history⟩ := s.exists_history (.found hp)
    exact ⟨g, law, past, history⟩
  | perform h c ih =>
    obtain ⟨g, law, past, history⟩ := ih
    obtain ⟨past', history'⟩ := (perform_evolves h.linked c).exists_history history
    exact ⟨g, law, past', history'⟩

end Universe

/-- A population with a history in which Abel has been born. -/
theorem Sample.exists_descendant : ∃ g law past p a, Population.History g law past p ∧
    p.account? abelId = some a ∧ ¬ p.IsGenesis abelId := by
  obtain ⟨u, t, _, hu, ht, hm, _⟩ := exists_family
  obtain ⟨g, law, past, history⟩ := hu.exists_history
  obtain ⟨a, ha, hborn⟩ := (hu.evolved.recounts adamId t ht).born abelId _ hm
  refine ⟨g, law, past, u.population, a, history, ha, ?_⟩
  intro hgenesis
  obtain ⟨a', ha', hnone⟩ := (hu.linked.genesis abelId).1 hgenesis
  rw [ha] at ha'
  cases ha'
  rw [TimeProof.birthTime, hnone] at hborn
  have hzero : (2 : Steps) = 0 := congrArg Membership.bornAt hborn
  exact absurd hzero (by decide)

namespace Population

variable {g : GenesisPair} {law : Law.Parameters} {past : List Population} {p : Population}

/-- Everybody but the two genesis accounts has the approvals of two accounts that were admitted
earlier, which are in order now as they were then, and just these two as parents in the graph. -/
theorem birth_rules_kept (h : History g law past p) :
    p.genesis = g.ids ∧ g.first.id ≠ g.second.id ∧
    p.account? g.first.id = some g.first ∧ p.account? g.second.id = some g.second ∧
    ∀ id a, p.account? id = some a →
      (a.parents = none ↔ p.IsGenesis id) ∧
      (¬ p.IsGenesis id → ∃ first second x y, Approved p a first second x y ∧
        p.residents.Precedes first.parent id ∧ p.residents.Precedes second.parent id ∧
        (∃ v, p.residents.get? id = some v ∧
          ∀ d, d ∈ v.parents ↔ d = first.parent ∨ d = second.parent) ∧
        ∀ d, (p.children d).count id = if d = first.parent ∨ d = second.parent then 1 else 0) := by
  have pedigree := h.pedigree
  refine ⟨pedigree.genesis_eq, pedigree.ids_ne, pedigree.first_account, pedigree.second_account, ?_⟩
  intro id a ha
  refine ⟨pedigree.parents_eq_none_iff ha, ?_⟩
  intro hout
  obtain ⟨v, hv, rfl, rfl⟩ := account?_eq_some_iff.1 ha
  obtain ⟨first, second, x, y, approved, hparents⟩ := pedigree.exists_approved hv hout
  refine ⟨first, second, x, y, approved, ?_, ?_, ?_, ?_⟩
  · exact Dag.precedes_of_parent hv ((hparents first.parent).2 (.inl rfl))
  · exact Dag.precedes_of_parent hv ((hparents second.parent).2 (.inr rfl))
  · exact ⟨v, Dag.get?_eq_some_iff.2 ⟨hv, rfl⟩, hparents⟩
  · intro d
    rw [children, Dag.count_children hv]
    simp only [hparents]

/-- Abel is a child of those who have approved him. -/
theorem birth_rules_kept_abel : ∃ g law past p a first second x y, History g law past p ∧
    p.account? Sample.abelId = some a ∧ Approved p a first second x y ∧
    (p.children first.parent).count Sample.abelId = 1 ∧
    (p.children second.parent).count Sample.abelId = 1 := by
  obtain ⟨g, law, past, p, a, history, ha, hout⟩ := Sample.exists_descendant
  obtain ⟨_, _, _, _, born⟩ := birth_rules_kept history
  obtain ⟨first, second, x, y, approved, _, _, _, counts⟩ := (born _ a ha).2 hout
  refine ⟨g, law, past, p, a, first, second, x, y, history, ha, approved, ?_, ?_⟩
  · rw [counts, if_pos (.inl rfl)]
  · rw [counts, if_pos (.inr rfl)]

/-- Everybody but the genesis accounts descends from both of them, and has parents that are either
both genesis accounts or both not. No birth passes that names a genesis account and another one. -/
theorem genesis_apart (h : History g law past p) :
    p.genesis = g.ids ∧
    (∀ id a, p.account? id = some a → ¬ p.IsGenesis id →
      p.isAncestor p.genesis.1 id = true ∧ p.isAncestor p.genesis.2 id = true ∧
      ∃ first second, a.parents = some (first, second) ∧
        (p.IsGenesis first.parent ↔ p.IsGenesis second.parent)) ∧
    ∀ a first second, a.parents = some (first, second) →
      first.parent ∈ p → second.parent ∈ p →
      (p.IsGenesis first.parent ∧ ¬ p.IsGenesis second.parent ∨
        ¬ p.IsGenesis first.parent ∧ p.IsGenesis second.parent) →
      p.checkBirth a = .error .parityMismatch ∨
        p.checkBirth a = .error (.ancestorConflict first.parent second.parent) := by
  have pedigree := h.pedigree
  refine ⟨pedigree.genesis_eq, ?_, ?_⟩
  · intro id a ha hout
    have hmem : id ∈ p := mem_iff_account?.2 ⟨a, ha⟩
    refine ⟨pedigree.isAncestor_of_isGenesis (.inl rfl) id hmem hout,
      pedigree.isAncestor_of_isGenesis (.inr rfl) id hmem hout, ?_⟩
    obtain ⟨first, second, x, y, approved⟩ := pedigree.approved id a ha hout
    exact ⟨first, second, approved.parents, pedigree.isGenesis_iff approved⟩
  · intro a first second parents hfirst hsecond hor
    obtain ⟨x, hx⟩ := mem_iff_account?.1 hfirst
    obtain ⟨y, hy⟩ := mem_iff_account?.1 hsecond
    have related : p.residents.related first.parent second.parent = true := by
      rcases hor with ⟨one, two⟩ | ⟨one, two⟩
      · exact pedigree.related_of_isGenesis one hsecond two
      · rw [Dag.related_comm]
        exact pedigree.related_of_isGenesis two hfirst one
    rw [checkBirth_of_related parents hx hy related]
    split
    · exact .inl rfl
    · exact .inr rfl

/-- Nobody is born to a genesis account and Abel, who descends from both. -/
theorem genesis_apart_abel : ∃ g law past p a, History g law past p ∧
    p.isAncestor p.genesis.1 Sample.abelId = true ∧
    p.isAncestor p.genesis.2 Sample.abelId = true ∧
    a.parents = some (⟨p.genesis.1, []⟩, ⟨Sample.abelId, []⟩) ∧
    (p.checkBirth a = .error .parityMismatch ∨
      p.checkBirth a = .error (.ancestorConflict p.genesis.1 Sample.abelId)) := by
  obtain ⟨g, law, past, p, abel, history, ha, hout⟩ := Sample.exists_descendant
  obtain ⟨hgenesis, descends, refused⟩ := genesis_apart history
  obtain ⟨hfirst, hsecond, _⟩ := descends _ abel ha hout
  have known : p.genesis.1 ∈ p := by
    rw [hgenesis]
    exact mem_iff_account?.2 ⟨g.first, history.pedigree.first_account⟩
  have refusal := refused
    ⟨Sample.abel, some (⟨p.genesis.1, []⟩, ⟨Sample.abelId, []⟩), none⟩ _ _ rfl known
    (mem_iff_account?.2 ⟨abel, ha⟩) (.inl ⟨.inl rfl, hout⟩)
  exact ⟨g, law, past, p, _, history, hfirst, hsecond, rfl, refusal⟩

end Population

end Lineage
