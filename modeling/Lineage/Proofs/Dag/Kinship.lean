import Lineage.Proofs.Dag.Ancestors
import Lineage.Proofs.Dag.Growth

/-!
# Kinship in growing graphs

The walk that stops at its target finds it exactly if the full walk reaches it, so there is one
notion of an ancestor. Parents are older than their children, and nothing is its own ancestor. The
ancestors of a vertex are settled when it is inserted.
-/
namespace Lineage

variable {α : Type}

theorem Grown.of_append {newer older : List (Vertex α)} (h : Grown (newer ++ older)) :
    Grown older := by
  induction newer with
  | nil => exact h
  | cons v newer ih =>
    cases h with
    | cons _ _ grown => exact ih grown

namespace Dag

variable {g h : Dag α} {a b d p : Digest} {v : Vertex α}

theorem mem_of_transGen_parentIn (path : Relation.TransGen (ParentIn g.newestFirst) a d) :
    a ∈ g :=
  mem_of_mem_ancestors (mem_ancestors_iff.2 path)

/-- The ancestors of a vertex were inserted before it. -/
theorem precedes_of_mem_ancestors (ha : a ∈ g.ancestors d) : g.Precedes a d := by
  obtain ⟨_, _, v, hv, rfl, _⟩ := Relation.TransGen.tail'_iff.1 (mem_ancestors_iff.1 ha)
  obtain ⟨newer, older, hsplit⟩ := List.mem_iff_append.1 hv
  have hgrown : Grown (v :: older) := Grown.of_append (hsplit ▸ g.grown)
  have settled : g.ancestors v.id = ancestors ⟨v :: older, hgrown⟩ v.id := by
    apply ancestors_of_subset
    · intro w hw
      rw [hsplit]
      exact List.mem_append_right newer hw
    · exact List.mem_cons_self ..
  have holder : a ∈ older.map (·.id) := by
    rw [settled, mem_ancestors_iff] at ha
    cases hgrown with
    | cons fresh known grown =>
      rcases (transGen_parentIn_self (.cons fresh known grown)).1 ha with hp | ⟨b, _, path⟩
      · exact known a hp
      · exact mem_of_transGen_parentIn (g := ⟨older, grown⟩) path
  refine ⟨(older.map (·.id)).reverse, (newer.map (·.id)).reverse, ?_, List.mem_reverse.2 holder⟩
  rw [ids, vertices, hsplit]
  simp

/-- The parents of a vertex were inserted before it. -/
theorem precedes_of_parent (hv : v ∈ g.newestFirst) (hp : p ∈ v.parents) :
    g.Precedes p v.id :=
  precedes_of_mem_ancestors (mem_ancestors_iff.2 (.single ⟨v, hv, rfl, hp⟩))

/-- The parents of a vertex and their ancestors are its ancestors, and there are no others. -/
theorem mem_ancestors_of_parent_iff (hv : v ∈ g.newestFirst) :
    a ∈ g.ancestors v.id ↔ ∃ p ∈ v.parents, a = p ∨ a ∈ g.ancestors p := by
  have edge : ∀ p, ParentIn g.newestFirst p v.id ↔ p ∈ v.parents := by
    intro p
    constructor
    · rintro ⟨w, hw, hid, hp⟩
      rwa [eq_of_id_eq hw hv hid] at hp
    · intro hp
      exact ⟨v, hv, rfl, hp⟩
  rw [mem_ancestors_iff, Relation.TransGen.tail'_iff]
  simp only [edge, Relation.reflTransGen_iff_eq_or_transGen, mem_ancestors_iff]
  constructor
  · rintro ⟨p, hp | hp, hparent⟩
    · exact ⟨p, hparent, .inl hp.symm⟩
    · exact ⟨p, hparent, .inr hp⟩
  · rintro ⟨p, hparent, hp | hp⟩
    · exact ⟨p, .inl hp.symm, hparent⟩
    · exact ⟨p, .inr hp, hparent⟩

/-- A path down a list of vertices begins at one that is older than its end. -/
theorem ne_of_transGen_parentIn {l : List (Vertex α)} (hl : Grown l)
    (path : Relation.TransGen (ParentIn l) a d) : a ≠ d := by
  induction l generalizing d with
  | nil =>
    obtain ⟨_, _, _, hv, _⟩ := Relation.TransGen.tail'_iff.1 path
    cases hv
  | cons v older ih =>
    cases hl with
    | cons fresh known grown =>
      by_cases hd : d = v.id
      · subst hd
        rintro rfl
        rcases (transGen_parentIn_self (.cons fresh known grown)).1 path with hself | ⟨b, hb, hpath⟩
        · exact fresh (known _ hself)
        · exact fresh (mem_of_transGen_parentIn (g := ⟨older, grown⟩) hpath)
      · exact ih grown ((transGen_parentIn_cons (.cons fresh known grown) hd).1 path)

theorem not_mem_ancestors_self : d ∉ g.ancestors d := fun h =>
  ne_of_transGen_parentIn g.grown (mem_ancestors_iff.1 h) rfl

/-- The walk that stops at its target stops exactly if the full walk adds the target. -/
theorem mem_reach_iff_reaches {target id : Digest} {l : List (Vertex α)} {s : DigestSet} :
    target ∈ reach id l s ↔ target ∈ s ∨ reaches target id l s = true := by
  induction l generalizing s with
  | nil => simp [reach, reaches]
  | cons v older ih =>
    by_cases met : v.id = id ∨ v.id ∈ s
    · rw [reach, reaches, if_pos met, if_pos met, ih, DigestSet.mem_insertAll, Bool.or_eq_true,
        decide_eq_true_eq, or_assoc, DigestSet.mem_def (s := v.parents)]
    · rw [reach, reaches, if_neg met, if_neg met, ih]

theorem isAncestor_iff : g.isAncestor a d = true ↔ a ∈ g.ancestors d := by
  have hwalk : a ∈ g.ancestors d ↔ reaches a d g.newestFirst ∅ = true := by
    rw [ancestors, mem_reach_iff_reaches]
    simp
  rw [isAncestor, Bool.and_eq_true, bne_iff_ne, ← hwalk]
  constructor
  · exact And.right
  · intro ha
    refine ⟨?_, ha⟩
    rintro rfl
    exact not_mem_ancestors_self ha

theorem related_eq_false_iff :
    g.related a b = false ↔ g.isAncestor a b = false ∧ g.isAncestor b a = false := by
  rw [related, Bool.or_eq_false_iff]

theorem related_comm : g.related a b = g.related b a := Bool.or_comm ..

theorem ne_of_related (related : g.related a b = true) : a ≠ b := by
  rintro rfl
  simp [Dag.related, isAncestor] at related

theorem GrowsTo.isAncestor_eq (grows : g.GrowsTo h) (hd : d ∈ g) :
    h.isAncestor a d = g.isAncestor a d := by
  rw [Bool.eq_iff_iff, isAncestor_iff, isAncestor_iff, ancestors_of_subset grows.subset hd]

theorem nodup_children (g : Dag α) (p : Digest) : (g.children p).Nodup :=
  g.nodup_ids.sublist (List.filter_sublist.map _)

/-- A vertex occurs once among the children of each of its parents, and nowhere else. -/
theorem count_children (hv : v ∈ g.newestFirst) (p : Digest) :
    (g.children p).count v.id = if p ∈ v.parents then 1 else 0 := by
  split
  · next hp => exact List.count_eq_one_of_mem (g.nodup_children p) (mem_children.2 ⟨v, hv, hp, rfl⟩)
  · next hp =>
    refine List.count_eq_zero.2 fun hin => ?_
    obtain ⟨w, hw, hpw, hid⟩ := mem_children.1 hin
    rw [eq_of_id_eq hw hv hid] at hpw
    exact hp hpw

end Dag

end Lineage
