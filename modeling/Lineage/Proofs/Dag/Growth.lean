import Lineage.Proofs.Dag.Insertion

/-!
# What growth leaves as it was

A graph that has come from another by insertions gives the same answer to every question about a
vertex that was there before.
-/
namespace Lineage.Dag

variable {α : Type} {g h k : Dag α} {v : Vertex α} {d : Digest}

/-- One graph comes from another by insertions: its oldest vertices are those of the other one. -/
def GrowsTo (g h : Dag α) : Prop := g.newestFirst <:+ h.newestFirst

theorem get?_of_subset (hsub : ∀ v ∈ g.newestFirst, v ∈ h.newestFirst) (hd : d ∈ g) :
    h.get? d = g.get? d := by
  obtain ⟨v, hv, hid⟩ := List.mem_map.1 hd
  rw [get?_eq_some_iff.2 ⟨hv, hid⟩, get?_eq_some_iff]
  exact ⟨hsub v hv, hid⟩

namespace GrowsTo

theorem refl (g : Dag α) : g.GrowsTo g := List.suffix_rfl

theorem trans (first : g.GrowsTo h) (later : h.GrowsTo k) : g.GrowsTo k :=
  List.IsSuffix.trans first later

theorem of_insert (i : g.insert v = .ok h) : g.GrowsTo h := by
  rw [GrowsTo, newestFirst_insert i]
  exact List.suffix_cons v g.newestFirst

theorem subset (grows : g.GrowsTo h) : ∀ v ∈ g.newestFirst, v ∈ h.newestFirst :=
  fun _ hv => List.IsSuffix.subset grows hv

theorem mem (grows : g.GrowsTo h) (hd : d ∈ g) : d ∈ h :=
  List.map_subset _ (List.IsSuffix.subset grows) hd

theorem get?_of_mem (grows : g.GrowsTo h) (hd : d ∈ g) : h.get? d = g.get? d :=
  get?_of_subset grows.subset hd

theorem value?_of_mem (grows : g.GrowsTo h) (hd : d ∈ g) : h.value? d = g.value? d := by
  rw [value?, grows.get?_of_mem hd, value?]

theorem value?_mono (grows : g.GrowsTo h) {a : α} (ha : g.value? d = some a) :
    h.value? d = some a := by
  rw [grows.value?_of_mem (mem_iff_value?.2 ⟨a, ha⟩), ha]

theorem ids (grows : g.GrowsTo h) : g.ids <+: h.ids :=
  (List.reverse_prefix.2 grows).map _

theorem size_le (grows : g.GrowsTo h) : g.size ≤ h.size := List.IsSuffix.length_le grows

/-- A graph that holds more is larger. -/
theorem size_lt (grows : g.GrowsTo h) (hin : d ∈ h) (hout : d ∉ g) : g.size < h.size := by
  refine Nat.lt_of_le_of_ne grows.size_le fun hsize => hout ?_
  rw [mem_def, List.IsSuffix.eq_of_length grows hsize]
  exact hin

end GrowsTo

end Lineage.Dag
