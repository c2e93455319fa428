import Lineage.Proofs.Dag.Insertion
import Lineage.Proofs.Digest.Ascending
import Mathlib.Logic.Relation

/-!
# Ancestors in growing graphs

The walk from the newest vertex down only ever meets vertices of the graph, and it meets just those
that parent edges lead to. A later vertex is no ancestor of an earlier one, so what has been
inserted once keeps its ancestors, whatever else the graph holds and in whatever order.
-/
namespace Lineage.Dag

variable {α : Type}

/-- The walk adds parents of the vertices it passes, and nothing else. -/
theorem mem_of_mem_reach {id d : Digest} {l : List (Vertex α)} {s : DigestSet} (hl : Grown l)
    (h : d ∈ reach id l s) : d ∈ s ∨ d ∈ l.map (·.id) := by
  induction hl generalizing s with
  | nil => exact .inl h
  | @cons v older _ known _ ih =>
    unfold reach at h
    split at h
    · rcases ih h with h | h
      · rcases DigestSet.mem_insertAll.1 h with h | h
        · exact .inl h
        · exact .inr (List.mem_cons_of_mem _ (known d h))
      · exact .inr (List.mem_cons_of_mem _ h)
    · exact (ih h).imp_right (List.mem_cons_of_mem _)

theorem mem_of_mem_ancestors {g : Dag α} {id d : Digest} (h : d ∈ g.ancestors id) : d ∈ g := by
  rcases mem_of_mem_reach g.grown h with h | h
  · exact absurd h DigestSet.not_mem_empty
  · exact h

/-- Whether `p` is a parent of `d` in a list of vertices. -/
def ParentIn (l : List (Vertex α)) (p d : Digest) : Prop := ∃ v ∈ l, v.id = d ∧ p ∈ v.parents

/-- A path that ends in a place where no edge leads out of another relation lies in that one. -/
theorem transGen_of_closed {r s : Digest → Digest → Prop} (place : Digest → Prop)
    (closed : ∀ a b, r a b → place b → s a b ∧ place a) {a b : Digest}
    (h : Relation.TransGen r a b) (hb : place b) : Relation.TransGen s a b := by
  induction h with
  | single hab => exact .single (closed _ _ hab hb).1
  | tail _ hbc ih =>
    obtain ⟨edge, place⟩ := closed _ _ hbc hb
    exact .tail (ih place) edge

theorem ParentIn.cons {l : List (Vertex α)} {v : Vertex α} {p d : Digest} (h : ParentIn l p d) :
    ParentIn (v :: l) p d := by
  obtain ⟨w, hw, hp⟩ := h
  exact ⟨w, List.mem_cons_of_mem _ hw, hp⟩

theorem transGen_parentIn_of_tail {l : List (Vertex α)} {v : Vertex α} {a d : Digest}
    (h : Relation.TransGen (ParentIn l) a d) : Relation.TransGen (ParentIn (v :: l)) a d :=
  Relation.TransGen.mono (fun _ _ => ParentIn.cons) a d h

/-- The newest vertex is on no path to another one. -/
theorem transGen_parentIn_cons {v : Vertex α} {older : List (Vertex α)}
    (hl : Grown (v :: older)) {a d : Digest} (hd : d ≠ v.id) :
    Relation.TransGen (ParentIn (v :: older)) a d ↔ Relation.TransGen (ParentIn older) a d := by
  constructor
  · intro h
    refine transGen_of_closed (· ≠ v.id) ?_ h hd
    rintro p c ⟨w, hw, rfl, hp⟩ hc
    rcases List.mem_cons.1 hw with rfl | hw
    · exact absurd rfl hc
    · cases hl with
      | cons fresh _ grown =>
        refine ⟨⟨w, hw, rfl, hp⟩, ?_⟩
        rintro rfl
        exact fresh (grown.known hw v.id hp)
  · exact transGen_parentIn_of_tail

/-- A path to the newest vertex comes through one of its parents. -/
theorem transGen_parentIn_self {v : Vertex α} {older : List (Vertex α)}
    (hl : Grown (v :: older)) {a : Digest} :
    Relation.TransGen (ParentIn (v :: older)) a v.id ↔
      a ∈ v.parents ∨ ∃ b ∈ v.parents, Relation.TransGen (ParentIn older) a b := by
  cases hl with
  | cons fresh known grown =>
    have hne : ∀ b ∈ v.parents, b ≠ v.id := by
      rintro b hb rfl
      exact fresh (known v.id hb)
    have edge : ∀ b, ParentIn (v :: older) b v.id ↔ b ∈ v.parents := by
      intro b
      constructor
      · rintro ⟨w, hw, hid, hb⟩
        rcases List.mem_cons.1 hw with rfl | hw
        · exact hb
        · exact absurd (hid ▸ List.mem_map_of_mem hw) fresh
      · intro hb
        exact ⟨v, List.mem_cons_self .., rfl, hb⟩
    rw [Relation.TransGen.tail'_iff]
    constructor
    · rintro ⟨b, hab, hb⟩
      rw [edge] at hb
      rcases Relation.reflTransGen_iff_eq_or_transGen.1 hab with rfl | hab
      · exact .inl hb
      · exact .inr ⟨b, hb, (transGen_parentIn_cons (.cons fresh known grown) (hne b hb)).1 hab⟩
    · rintro (ha | ⟨b, hb, hab⟩)
      · exact ⟨a, .refl, (edge a).2 ha⟩
      · exact ⟨b, (transGen_parentIn_of_tail hab).to_reflTransGen, (edge b).2 hb⟩

/-- The walk reaches what paths lead to from where it is, and nothing else. -/
theorem mem_reach_iff {id a : Digest} {l : List (Vertex α)} {s : DigestSet} (hl : Grown l) :
    a ∈ reach id l s ↔
      a ∈ s ∨ ∃ d, (d = id ∨ d ∈ s) ∧ Relation.TransGen (ParentIn l) a d := by
  induction l generalizing s with
  | nil =>
    have hnone : ∀ d, ¬ Relation.TransGen (ParentIn ([] : List (Vertex α))) a d := by
      intro d h
      obtain ⟨_, _, _, hv, _⟩ := Relation.TransGen.tail'_iff.1 h
      cases hv
    simp [reach, hnone]
  | cons v older ih =>
    have grown : Grown older := by cases hl; assumption
    by_cases met : v.id = id ∨ v.id ∈ s
    · rw [reach, if_pos met, ih grown]
      simp only [DigestSet.mem_insertAll, ← DigestSet.mem_def]
      constructor
      · rintro ((ha | ha) | ⟨d, hd | hd | hd, had⟩)
        · exact .inl ha
        · exact .inr ⟨v.id, met, (transGen_parentIn_self hl).2 (.inl ha)⟩
        · exact .inr ⟨d, .inl hd, transGen_parentIn_of_tail had⟩
        · exact .inr ⟨d, .inr hd, transGen_parentIn_of_tail had⟩
        · exact .inr ⟨v.id, met, (transGen_parentIn_self hl).2 (.inr ⟨d, hd, had⟩)⟩
      · rintro (ha | ⟨d, hd, had⟩)
        · exact .inl (.inl ha)
        · by_cases hself : d = v.id
          · subst hself
            rcases (transGen_parentIn_self hl).1 had with ha | ⟨b, hb, hab⟩
            · exact .inl (.inr ha)
            · exact .inr ⟨b, .inr (.inr hb), hab⟩
          · exact .inr ⟨d, hd.imp_right .inl, (transGen_parentIn_cons hl hself).1 had⟩
    · rw [reach, if_neg met, ih grown]
      refine or_congr_right (exists_congr fun d => and_congr_right fun hd => ?_)
      have hne : d ≠ v.id := by
        rintro rfl
        exact met hd
      exact (transGen_parentIn_cons hl hne).symm

/-- The ancestors of a vertex are what its parent edges lead to. -/
theorem mem_ancestors_iff {g : Dag α} {a d : Digest} :
    a ∈ g.ancestors d ↔ Relation.TransGen (ParentIn g.newestFirst) a d := by
  rw [ancestors, mem_reach_iff g.grown]
  simp

/-- A graph that holds all vertices of another one gives them the same ancestors. -/
theorem ancestors_of_subset {g h : Dag α} (hsub : ∀ v ∈ g.newestFirst, v ∈ h.newestFirst)
    {d : Digest} (hd : d ∈ g) : h.ancestors d = g.ancestors d := by
  refine DigestSet.ext_mem fun a => ?_
  rw [mem_ancestors_iff, mem_ancestors_iff]
  constructor
  · intro ha
    refine transGen_of_closed (· ∈ g) ?_ ha hd
    rintro p c ⟨w, hw, rfl, hp⟩ hc
    obtain ⟨v, hv, hid⟩ := List.mem_map.1 hc
    obtain rfl := eq_of_id_eq (hsub v hv) hw hid
    exact ⟨⟨v, hv, rfl, hp⟩, mem_of_mem_parents hv hp⟩
  · exact Relation.TransGen.mono (fun p c ⟨v, hv, hid, hp⟩ => ⟨v, hsub v hv, hid, hp⟩) a d

end Lineage.Dag
