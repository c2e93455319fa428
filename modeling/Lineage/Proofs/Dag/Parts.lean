import Lineage.Proofs.Dag.Ancestors

/-!
# Parts of graphs

A graph is a part of another one, whatever either has as values, when its vertices occur there in
the same order and with the same parents. It holds all ancestors of each of its vertices then.
-/
namespace Lineage

variable {α β : Type}

/-- A vertex without its value. -/
def Vertex.link (v : Vertex α) : Digest × DigestSet := (v.id, v.parents)

namespace Dag

/-- Whether the vertices of a graph occur in another one in the same order and with the same
parents. -/
def PartOf (g : Dag α) (h : Dag β) : Prop :=
  (g.newestFirst.map Vertex.link).Sublist (h.newestFirst.map Vertex.link)

namespace PartOf

variable {g g' : Dag α} {h h' : Dag β} {v : Vertex α} {w : Vertex β} {a d p : Digest}

theorem insert_right (part : g.PartOf h) (i : h.insert w = .ok h') : g.PartOf h' := by
  rw [PartOf, newestFirst_insert i, List.map_cons]
  exact part.cons w.link

/-- A part goes on being one when the same vertex comes to both graphs. -/
theorem insert (part : g.PartOf h) (i : g.insert v = .ok g') (j : h.insert w = .ok h')
    (same : v.link = w.link) : g'.PartOf h' := by
  rw [PartOf, newestFirst_insert i, newestFirst_insert j, List.map_cons, List.map_cons, same]
  exact part.cons_cons w.link

theorem ids (part : g.PartOf h) : g.ids.Sublist h.ids := by
  have order := (part.map Prod.fst).reverse
  simpa [Dag.ids, vertices, Function.comp_def, Vertex.link] using order

/-- A vertex of the part has the same parents in both graphs. -/
theorem exists_vertices (part : g.PartOf h) (hd : d ∈ g) :
    ∃ v w, g.get? d = some v ∧ h.get? d = some w ∧ v.parents = w.parents := by
  obtain ⟨v, hv, rfl⟩ := List.mem_map.1 hd
  obtain ⟨w, hw, same⟩ := List.mem_map.1 (List.Sublist.mem (List.mem_map_of_mem hv) part)
  simp only [Vertex.link, Prod.mk.injEq] at same
  exact ⟨v, w, get?_eq_some_iff.2 ⟨hv, rfl⟩, get?_eq_some_iff.2 ⟨hw, same.1⟩, same.2.symm⟩

theorem parentIn (part : g.PartOf h) (hd : d ∈ g) (hp : ParentIn h.newestFirst p d) :
    ParentIn g.newestFirst p d := by
  obtain ⟨v, w, hv, hw, same⟩ := part.exists_vertices hd
  obtain ⟨x, hx, hid, hp⟩ := hp
  rw [get?_eq_some_iff.2 ⟨hx, hid⟩, Option.some.injEq] at hw
  rw [get?_eq_some_iff] at hv
  exact ⟨v, hv.1, hv.2, by rwa [same, ← hw]⟩

/-- A part holds the parents of its vertices. -/
theorem parent_mem (part : g.PartOf h) (hd : d ∈ g) (hp : ParentIn h.newestFirst p d) : p ∈ g := by
  obtain ⟨v, hv, -, hp⟩ := part.parentIn hd hp
  exact mem_of_mem_parents hv hp

/-- A part holds the ancestors of its vertices. -/
theorem ancestor_mem (part : g.PartOf h) (hd : d ∈ g) (ha : a ∈ h.ancestors d) : a ∈ g := by
  have path : Relation.TransGen (ParentIn g.newestFirst) a d := by
    apply transGen_of_closed (· ∈ g) _ (mem_ancestors_iff.1 ha) hd
    intro p c hp hc
    exact ⟨part.parentIn hc hp, part.parent_mem hc hp⟩
  exact mem_of_mem_ancestors (mem_ancestors_iff.2 path)

end PartOf

end Dag

end Lineage
