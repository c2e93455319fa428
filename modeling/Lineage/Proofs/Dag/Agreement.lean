import Lineage.Proofs.Dag.Growth

/-!
# Graphs that agree apart from some vertices

Two graphs may hold the same vertices but for a few ids. An insertion that neither bears one of
these ids nor names one as a parent comes to the same in both: it is refused for the same reason,
or leaves two graphs that agree as before. Graphs that agree altogether differ in nothing but the
order of insertion.
-/
namespace Lineage

/-- Two results in step: failures for the same reason, or values that belong together. -/
inductive InStep {ε α β : Type} (r : α → β → Prop) : Except ε α → Except ε β → Prop where
  | ok {a : α} {b : β} (h : r a b) : InStep r (.ok a) (.ok b)
  | error (e : ε) : InStep r (.error e) (.error e)

namespace InStep

variable {ε α β γ δ : Type} {r : α → β → Prop} {x : Except ε α} {y : Except ε β}

theorem error_or_ok (h : InStep r x y) :
    (∃ e, x = .error e ∧ y = .error e) ∨ ∃ a b, x = .ok a ∧ y = .ok b ∧ r a b := by
  cases h with
  | ok hr => exact .inr ⟨_, _, rfl, rfl, hr⟩
  | error e => exact .inl ⟨e, rfl, rfl⟩

theorem map (h : InStep r x y) {q : γ → δ → Prop} {f : α → γ} {g : β → δ}
    (hr : ∀ a b, r a b → q (f a) (g b)) : InStep q (x.map f) (y.map g) := by
  cases h with
  | ok h => exact .ok (hr _ _ h)
  | error e => exact .error e

theorem refl (x : Except ε α) : InStep (· = ·) x x := by
  cases x with
  | ok a => exact .ok rfl
  | error e => exact .error e

end InStep

/-- Two optional values that belong together are both there or both missing. -/
theorem none_or_some_of_rel {α β : Type} {r : α → β → Prop} {x : Option α} {y : Option β}
    (h : Option.Rel r x y) : (x = none ∧ y = none) ∨ ∃ a b, x = some a ∧ y = some b ∧ r a b := by
  cases h with
  | none => exact .inl ⟨rfl, rfl⟩
  | some hr => exact .inr ⟨_, _, rfl, rfl, hr⟩

namespace Dag

variable {α : Type} {extra : List Digest} {g h k : Dag α} {v : Vertex α} {d : Digest}

/-- Two graphs hold the same vertices but for those with some ids. -/
def AgreeOff (extra : List Digest) (g h : Dag α) : Prop := ∀ d, d ∉ extra → h.get? d = g.get? d

theorem insert_of_mem (hv : v.id ∈ g) : g.insert v = .error (.duplicate v.id) := by
  rw [insert, dif_pos hv]

theorem insert_of_unknown {p : Digest} (fresh : v.id ∉ g)
    (hp : v.parents.toList.find? (fun p => decide (p ∉ g)) = some p) :
    g.insert v = .error (.unknownParent p) := by
  rw [insert, dif_neg fresh]
  split
  · next hq => rw [hp] at hq; cases hq; rfl
  · next hnone => rw [hp] at hnone; cases hnone

namespace AgreeOff

theorem refl (extra : List Digest) (g : Dag α) : AgreeOff extra g g := fun _ _ => rfl

theorem symm (a : AgreeOff extra g h) : AgreeOff extra h g := fun d hd => (a d hd).symm

theorem trans (a : AgreeOff extra g h) (b : AgreeOff extra h k) : AgreeOff extra g k :=
  fun d hd => (b d hd).trans (a d hd)

/-- Graphs that agree apart from one id and agree there agree altogether. -/
theorem of_singleton (a : AgreeOff [d] g h) (same : h.get? d = g.get? d) : AgreeOff [] g h := by
  intro e _
  by_cases he : e = d
  · rw [he, same]
  · exact a e (by rwa [List.mem_singleton])

theorem value? (a : AgreeOff extra g h) (hd : d ∉ extra) : h.value? d = g.value? d := by
  rw [Dag.value?, a d hd, Dag.value?]

theorem mem_iff (a : AgreeOff extra g h) (hd : d ∉ extra) : d ∈ h ↔ d ∈ g := by
  rw [mem_iff_value?, mem_iff_value?, a.value? hd]

theorem of_insert (i : g.insert v = .ok h) : AgreeOff [v.id] g h := by
  intro d hd
  rw [get?_insert i, if_neg (by simpa using hd)]

theorem insert (a : AgreeOff extra g h) (hid : v.id ∉ extra) (hp : ∀ p ∈ v.parents, p ∉ extra) :
    InStep (AgreeOff extra) (g.insert v) (h.insert v) := by
  by_cases fresh : v.id ∈ g
  · rw [insert_of_mem fresh, insert_of_mem ((a.mem_iff hid).2 fresh)]
    exact .error _
  · have fresh' : v.id ∉ h := fun hin => fresh ((a.mem_iff hid).1 hin)
    have same : v.parents.toList.find? (fun p => decide (p ∉ h)) =
        v.parents.toList.find? fun p => decide (p ∉ g) := by
      rw [← List.head?_filter, ← List.head?_filter]
      congr 1
      exact List.filter_congr fun p hin => decide_eq_decide.2 (not_congr (a.mem_iff (hp p hin)))
    cases hfind : v.parents.toList.find? fun p => decide (p ∉ g) with
    | some p =>
      rw [insert_of_unknown fresh hfind, insert_of_unknown fresh' (same.trans hfind)]
      exact .error _
    | none =>
      have known : ∀ p ∈ v.parents, p ∈ g := by
        intro p hin
        simpa using List.find?_eq_none.1 hfind p hin
      obtain ⟨g', hg⟩ := exists_insert fresh known
      obtain ⟨h', hh⟩ := exists_insert fresh' fun p hin => (a.mem_iff (hp p hin)).2 (known p hin)
      rw [hg, hh]
      refine .ok fun d hd => ?_
      rw [get?_insert hg, get?_insert hh, a d hd]

/-- The vertices of a graph without any of the ids are in every graph that agrees with it. -/
theorem subset (a : AgreeOff extra g h) (absent : ∀ d ∈ extra, d ∉ g) :
    ∀ v ∈ g.newestFirst, v ∈ h.newestFirst := by
  intro v hv
  have hid : v.id ∉ extra := fun hin => absent v.id hin (mem_of_mem_newestFirst hv)
  have hget : g.get? v.id = some v := get?_eq_some_iff.2 ⟨hv, rfl⟩
  exact (get?_eq_some_iff.1 ((a v.id hid).trans hget)).1

end AgreeOff

/-- Graphs that give the same answers differ in the order of insertion only. -/
theorem perm_vertices_iff : g.vertices.Perm h.vertices ↔ AgreeOff [] g h := by
  have nodup : ∀ g : Dag α, g.vertices.Nodup := fun g => g.nodup_ids.of_map
  have mem_iff : ∀ (g : Dag α) (v : Vertex α), v ∈ g.vertices ↔ g.get? v.id = some v := by
    intro g v
    rw [get?_eq_some_iff, mem_vertices]
    simp
  rw [List.perm_ext_iff_of_nodup (nodup g) (nodup h)]
  constructor
  · intro same d _
    refine Option.ext fun v => ?_
    have hsame := same v
    rw [mem_vertices, mem_vertices] at hsame
    rw [get?_eq_some_iff, get?_eq_some_iff, hsame]
  · intro a v
    rw [mem_iff, mem_iff, a v.id List.not_mem_nil]

theorem size_of_perm (perm : g.vertices.Perm h.vertices) : h.size = g.size := by
  have hlength := perm.length_eq
  rw [vertices, vertices, List.length_reverse, List.length_reverse] at hlength
  exact hlength.symm

end Dag

end Lineage
