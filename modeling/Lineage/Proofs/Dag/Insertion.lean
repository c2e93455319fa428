import Lineage.Dag
import Mathlib.Data.List.Nodup

/-!
# Insertion into append-only graphs

An insertion succeeds exactly when the id is new and every parent is known, and then one vertex
comes on top of what was there. What every question to a graph answers afterwards follows from
that alone, and the insertion order is a topological one.
-/
namespace Lineage

variable {α : Type}

theorem Grown.nodup {l : List (Vertex α)} (h : Grown l) : (l.map (·.id)).Nodup := by
  induction h with
  | nil => simp
  | cons fresh _ _ ih => exact List.nodup_cons.2 ⟨fresh, ih⟩

theorem Grown.known {l : List (Vertex α)} (h : Grown l) {v : Vertex α} (hv : v ∈ l) :
    ∀ p ∈ v.parents, p ∈ l.map (·.id) := by
  induction h with
  | nil => simp at hv
  | @cons w older _ known _ ih =>
    intro p hp
    rcases List.mem_cons.1 hv with rfl | hv
    · exact List.mem_cons_of_mem _ (known p hp)
    · exact List.mem_cons_of_mem _ (ih hv p hp)

/-- What holds of a vertex as soon as it holds of its parents holds of all vertices. -/
theorem Grown.induction {l : List (Vertex α)} (h : Grown l) {motive : Digest → Prop}
    (step : ∀ v ∈ l, (∀ p ∈ v.parents, motive p) → motive v.id) :
    ∀ d ∈ l.map (·.id), motive d := by
  induction h with
  | nil => intro d hd; cases hd
  | cons _ known _ ih =>
    have older := ih fun v hv => step v (List.mem_cons_of_mem _ hv)
    intro d hd
    rcases List.mem_cons.1 hd with rfl | hd
    · exact step _ (List.mem_cons_self ..) fun p hp => older p (known p hp)
    · exact older d hd

namespace Dag

theorem nodup_ids (g : Dag α) : g.ids.Nodup := by
  rw [ids, vertices, List.map_reverse]
  exact List.nodup_reverse.2 g.grown.nodup

@[simp] theorem mem_vertices {g : Dag α} {v : Vertex α} : v ∈ g.vertices ↔ v ∈ g.newestFirst :=
  List.mem_reverse

theorem mem_of_mem_newestFirst {g : Dag α} {v : Vertex α} (h : v ∈ g.newestFirst) : v.id ∈ g :=
  List.mem_map_of_mem h

theorem mem_of_mem_parents {g : Dag α} {v : Vertex α} (h : v ∈ g.newestFirst) {p : Digest}
    (hp : p ∈ v.parents) : p ∈ g :=
  g.grown.known h p hp

/-- Vertices with one id are one vertex. -/
theorem eq_of_id_eq {g : Dag α} {v w : Vertex α} (hv : v ∈ g.newestFirst) (hw : w ∈ g.newestFirst)
    (h : v.id = w.id) : v = w :=
  List.inj_on_of_nodup_map g.grown.nodup hv hw h

theorem get?_eq_some_iff {g : Dag α} {d : Digest} {v : Vertex α} :
    g.get? d = some v ↔ v ∈ g.newestFirst ∧ v.id = d := by
  constructor
  · intro h
    exact ⟨List.mem_of_find?_eq_some h, by simpa using List.find?_some h⟩
  · rintro ⟨hv, hd⟩
    obtain ⟨w, hw⟩ : ∃ w, g.get? d = some w := by
      rw [← Option.isSome_iff_exists, get?, List.find?_isSome]
      exact ⟨v, hv, by simpa using hd⟩
    have hw' : w.id = d := by simpa using List.find?_some hw
    rw [hw, eq_of_id_eq (List.mem_of_find?_eq_some hw) hv (hw'.trans hd.symm)]

theorem value?_eq_some_iff {g : Dag α} {d : Digest} {a : α} :
    g.value? d = some a ↔ ∃ v ∈ g.newestFirst, v.id = d ∧ v.value = a := by
  simp only [value?, Option.map_eq_some_iff, get?_eq_some_iff, and_assoc]

theorem mem_iff_value? {g : Dag α} {d : Digest} : d ∈ g ↔ ∃ a, g.value? d = some a := by
  constructor
  · intro h
    obtain ⟨v, hv, hd⟩ := List.mem_map.1 h
    exact ⟨v.value, value?_eq_some_iff.2 ⟨v, hv, hd, rfl⟩⟩
  · rintro ⟨a, ha⟩
    obtain ⟨v, hv, hd, _⟩ := value?_eq_some_iff.1 ha
    exact hd ▸ mem_of_mem_newestFirst hv

theorem value?_eq_none {g : Dag α} {d : Digest} : g.value? d = none ↔ d ∉ g := by
  rw [mem_iff_value?, Option.eq_none_iff_forall_ne_some, not_exists]

section Insert

variable {g g' : Dag α} {v : Vertex α}

/-- A graph comes from another by insertion exactly when it has one more vertex on top. -/
theorem insert_eq_ok_iff : g.insert v = .ok g' ↔ g'.newestFirst = v :: g.newestFirst := by
  unfold insert
  constructor
  · intro h
    split at h
    · cases h
    · split at h
      · cases h
      · cases h; rfl
  · intro h
    have hg := g'.grown
    rw [h] at hg
    cases hg with
    | cons fresh known _ =>
      rw [dif_neg (show v.id ∉ g from fresh)]
      split
      · next p hp =>
        have hm := List.mem_of_find?_eq_some hp
        have hn : p ∉ g := by simpa using List.find?_some hp
        exact absurd (known p hm) hn
      · exact congrArg Except.ok (Dag.ext h.symm)

theorem newestFirst_insert (h : g.insert v = .ok g') : g'.newestFirst = v :: g.newestFirst :=
  insert_eq_ok_iff.1 h

theorem fresh_of_insert (h : g.insert v = .ok g') : v.id ∉ g := by
  have hg := g'.grown
  rw [newestFirst_insert h] at hg
  cases hg with
  | cons fresh _ _ => exact fresh

theorem known_of_insert (h : g.insert v = .ok g') : ∀ p ∈ v.parents, p ∈ g := by
  have hg := g'.grown
  rw [newestFirst_insert h] at hg
  cases hg with
  | cons _ known _ => exact known

/-- Nothing but a taken id or an unknown parent stands against an insertion. -/
theorem exists_insert (fresh : v.id ∉ g) (known : ∀ p ∈ v.parents, p ∈ g) :
    ∃ g', g.insert v = .ok g' :=
  ⟨⟨v :: g.newestFirst, .cons fresh known g.grown⟩, insert_eq_ok_iff.2 rfl⟩

theorem mem_insert (h : g.insert v = .ok g') {d : Digest} : d ∈ g' ↔ d = v.id ∨ d ∈ g := by
  simp only [mem_def, newestFirst_insert h, List.map_cons, List.mem_cons]

theorem mem_insert_of_mem (h : g.insert v = .ok g') {d : Digest} (hd : d ∈ g) : d ∈ g' :=
  (mem_insert h).2 (.inr hd)

theorem ne_of_mem (h : g.insert v = .ok g') {d : Digest} (hd : d ∈ g) : d ≠ v.id := by
  rintro rfl
  exact fresh_of_insert h hd

theorem vertices_insert (h : g.insert v = .ok g') : g'.vertices = g.vertices ++ [v] := by
  simp [vertices, newestFirst_insert h]

theorem ids_insert (h : g.insert v = .ok g') : g'.ids = g.ids ++ [v.id] := by
  simp [ids, vertices_insert h]

theorem size_insert (h : g.insert v = .ok g') : g'.size = g.size + 1 := by
  rw [size, newestFirst_insert h, List.length_cons, size]

theorem get?_insert (h : g.insert v = .ok g') (d : Digest) :
    g'.get? d = if d = v.id then some v else g.get? d := by
  rw [get?, newestFirst_insert h, List.find?_cons]
  by_cases hd : d = v.id
  · simp [hd]
  · simp [hd, Ne.symm hd, get?]

theorem value?_insert (h : g.insert v = .ok g') (d : Digest) :
    g'.value? d = if d = v.id then some v.value else g.value? d := by
  rw [value?, get?_insert h]
  by_cases hd : d = v.id <;> simp [hd, value?]

theorem value?_insert_self (h : g.insert v = .ok g') : g'.value? v.id = some v.value := by
  simp [value?_insert h]

theorem value?_insert_of_mem (h : g.insert v = .ok g') {d : Digest} (hd : d ∈ g) :
    g'.value? d = g.value? d := by
  simp [value?_insert h, ne_of_mem h hd]

theorem value?_mono (h : g.insert v = .ok g') {d : Digest} {a : α} (ha : g.value? d = some a) :
    g'.value? d = some a := by
  rw [value?_insert_of_mem h (mem_iff_value?.2 ⟨a, ha⟩), ha]

/-- The new vertex is the last child of each of its parents. -/
theorem children_insert (h : g.insert v = .ok g') (p : Digest) :
    g'.children p = g.children p ++ if p ∈ v.parents then [v.id] else [] := by
  rw [children, vertices_insert h, List.filter_append, List.map_append, children]
  by_cases hp : p ∈ v.parents <;> simp [hp]

end Insert

theorem mem_children {g : Dag α} {p d : Digest} :
    d ∈ g.children p ↔ ∃ v ∈ g.newestFirst, p ∈ v.parents ∧ v.id = d := by
  simp [children, and_assoc]

/-- Whether `a` was inserted before `b`. -/
def Precedes (g : Dag α) (a b : Digest) : Prop :=
  ∃ before after, g.ids = before ++ b :: after ∧ a ∈ before

namespace Precedes

variable {g g' : Dag α} {v : Vertex α} {a b : Digest}

theorem of_insert (h : g.insert v = .ok g') (ha : a ∈ g) : g'.Precedes a v.id :=
  ⟨g.ids, [], ids_insert h, mem_ids.2 ha⟩

theorem insert (h : g.insert v = .ok g') (hab : g.Precedes a b) : g'.Precedes a b := by
  obtain ⟨before, after, hids, ha⟩ := hab
  exact ⟨before, after ++ [v.id], by rw [ids_insert h, hids]; simp, ha⟩

end Precedes

end Dag

end Lineage
