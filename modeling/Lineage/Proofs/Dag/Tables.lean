import Lineage.Dag.Tables
import Lineage.Proofs.Dag.Agreement
import Lineage.Proofs.Dag.Kinship

/-!
# Tables stand for a graph

Three tables that are filled by insertions alone, whatever is asked for and refused, always tell the
same: they stand for the graph that has grown by the same requests. So every id is listed once and
after its parents, an id has just those children that name it, and a request that is refused has
left all three tables as they were.
-/
namespace Lineage

variable {α : Type}

/-- The first hit in an ascending list is the least one. -/
theorem Digest.least_of_find? {l : List Digest} (ascending : l.Pairwise (· < ·))
    {hit : Digest → Bool} {d : Digest} (h : l.find? hit = some d) :
    d ∈ l ∧ hit d = true ∧ ∀ e ∈ l, hit e = true → e = d ∨ d < e := by
  obtain ⟨hd, before, after, rfl, miss⟩ := List.find?_eq_some_iff_append.1 h
  refine ⟨by simp, hd, ?_⟩
  intro e he hit_e
  rw [List.pairwise_append, List.pairwise_cons] at ascending
  rcases List.mem_append.1 he with he | he
  · have := miss e he
    simp [hit_e] at this
  · exact (List.mem_cons.1 he).imp id (ascending.2.1.1 e)

theorem Dag.Request.mem_vertex_parents {r : Request α} {p : Digest} :
    p ∈ r.vertex.parents ↔ p ∈ r.parents :=
  DigestSet.mem_ofList

namespace Dag.Tables

variable {t : Tables α} {g g' : Dag α} {r : Request α} {v : Vertex α} {p d child : Digest}

theorem insert_of_mem (taken : v.id ∈ t.vertices) :
    t.insert v = (t, .error (.duplicate v.id)) := by
  rw [insert, if_pos taken]

theorem insert_of_missing (fresh : v.id ∉ t.vertices)
    (hp : v.parents.toList.find? (fun p => decide (p ∉ t.vertices)) = some p) :
    t.insert v = (t, .error (.unknownParent p)) := by
  rw [insert, if_neg fresh, hp]

theorem insert_of_known (fresh : v.id ∉ t.vertices) (known : ∀ p ∈ v.parents, p ∈ t.vertices) :
    t.insert v = (t.put v, .ok ()) := by
  have none_missing : v.parents.toList.find? (fun p => decide (p ∉ t.vertices)) = none := by
    rw [List.find?_eq_none]
    intro p hp
    simpa using known p hp
  rw [insert, if_neg fresh, none_missing]

/-- A listed parent that is missing, before all others in the order of digests. -/
structure LeastMissing (t : Tables α) (parents : List Digest) (p : Digest) : Prop where
  listed : p ∈ parents
  missing : p ∉ t.vertices
  least : ∀ q ∈ parents, q ∉ t.vertices → q = p ∨ p < q

theorem LeastMissing.unique {parents : List Digest} {q : Digest} (h : t.LeastMissing parents p)
    (h' : t.LeastMissing parents q) : p = q := by
  rcases h.least q h'.listed h'.missing with heq | hlt
  · exact heq.symm
  · rcases h'.least p h.listed h.missing with heq | hlt'
    · exact heq
    · exact absurd (Word256.lt_trans hlt hlt') (Word256.lt_irrefl p)

/-- All that can come of an insertion. -/
inductive InsertOutcome (t : Tables α) (r : Request α) :
    Tables α × Except InsertError Unit → Prop where
  | duplicate (taken : r.id ∈ t.vertices) : InsertOutcome t r (t, .error (.duplicate r.id))
  | unknownParent {p : Digest} (fresh : r.id ∉ t.vertices) (least : t.LeastMissing r.parents p) :
      InsertOutcome t r (t, .error (.unknownParent p))
  | inserted (fresh : r.id ∉ t.vertices) (known : ∀ p ∈ r.parents, p ∈ t.vertices) :
      InsertOutcome t r (t.put r.vertex, .ok ())

theorem insert_outcome (t : Tables α) (r : Request α) :
    InsertOutcome t r (t.insert r.vertex) := by
  by_cases taken : r.id ∈ t.vertices
  · rw [insert_of_mem (v := r.vertex) taken]
    exact .duplicate taken
  · cases hfind : r.vertex.parents.toList.find? fun p => decide (p ∉ t.vertices) with
    | some p =>
      obtain ⟨listed, missing, least⟩ := Digest.least_of_find? r.vertex.parents.ascending hfind
      rw [insert_of_missing taken hfind]
      refine .unknownParent taken
        ⟨Request.mem_vertex_parents.1 listed, of_decide_eq_true missing, ?_⟩
      intro q hq hout
      exact least q (Request.mem_vertex_parents.2 hq) (decide_eq_true hout)
    | none =>
      have known : ∀ p ∈ r.vertex.parents, p ∈ t.vertices := by
        intro p hp
        simpa using List.find?_eq_none.1 hfind p hp
      rw [insert_of_known taken known]
      exact .inserted taken fun p hp => known p (Request.mem_vertex_parents.2 hp)

/-- When an insertion goes through, what it leaves, and what is reported if it does not. -/
structure InsertRule (t : Tables α) (r : Request α) : Prop where
  ok_iff : (t.insert r.vertex).2 = .ok () ↔
    r.id ∉ t.vertices ∧ ∀ p ∈ r.parents, p ∈ t.vertices
  duplicate_iff : ∀ d, (t.insert r.vertex).2 = .error (.duplicate d) ↔
    d = r.id ∧ r.id ∈ t.vertices
  unknownParent_iff : ∀ p, (t.insert r.vertex).2 = .error (.unknownParent p) ↔
    r.id ∉ t.vertices ∧ t.LeastMissing r.parents p
  order_of_ok : (t.insert r.vertex).2 = .ok () → (t.insert r.vertex).1.order = t.order ++ [r.id]
  vertices_of_ok : (t.insert r.vertex).2 = .ok () → ∀ d, (t.insert r.vertex).1.vertices.get? d =
    if d = r.id then some r.vertex else t.vertices.get? d
  unchanged : ∀ e, (t.insert r.vertex).2 = .error e → (t.insert r.vertex).1 = t

theorem insertRule (t : Tables α) (r : Request α) : t.InsertRule r := by
  have outcome := insert_outcome t r
  generalize hresult : t.insert r.vertex = result at outcome
  cases outcome with
  | duplicate taken => constructor <;> simp [hresult, taken, eq_comm]
  | @unknownParent p fresh least =>
    have unknown : ¬ ∀ q ∈ r.parents, q ∈ t.vertices := fun h => least.missing (h p least.listed)
    have least_iff : ∀ q, t.LeastMissing r.parents q ↔ q = p :=
      fun q => ⟨fun h => h.unique least, fun h => h ▸ least⟩
    constructor <;> simp [hresult, fresh, unknown, least_iff, eq_comm]
  | inserted fresh known =>
    have none_missing : ∀ q, ¬ t.LeastMissing r.parents q :=
      fun q h => h.missing (known q h.listed)
    have vertices : ∀ d, (t.put r.vertex).vertices.get? d =
        if d = r.id then some r.vertex else t.vertices.get? d :=
      fun d => DigestMap.get?_insert t.vertices r.id d r.vertex
    have order : (t.put r.vertex).order = t.order ++ [r.id] := rfl
    refine ⟨?_, ?_, ?_, ?_, ?_, ?_⟩
    · simpa [hresult, fresh] using known
    all_goals simp [hresult, fresh, none_missing, vertices, order]

/-- Tables that answer every question as a graph does. -/
structure Represents (t : Tables α) (g : Dag α) : Prop where
  vertices : ∀ d, t.vertices.get? d = g.get? d
  order : t.order = g.ids
  children : ∀ p, t.childrenOf p = g.children p

theorem represents_empty : Represents (∅ : Tables α) ∅ := ⟨fun _ => rfl, rfl, fun _ => rfl⟩

/-- Entering a vertex under several ids puts it behind the children of each. -/
theorem getD_foldl_enter {parents : List Digest} (distinct : parents.Nodup)
    (index : DigestMap (List Digest)) :
    ((parents.foldl (enter child) index).get? p).getD [] =
      (index.get? p).getD [] ++ if p ∈ parents then [child] else [] := by
  induction parents generalizing index with
  | nil => simp
  | cons q parents ih =>
    rw [List.nodup_cons] at distinct
    rw [List.foldl_cons, ih distinct.2, enter, DigestMap.get?_insert]
    by_cases hp : p = q
    · simp [hp, distinct.1]
    · simp [hp]

namespace Represents

theorem mem_vertices (h : t.Represents g) : d ∈ t.vertices ↔ d ∈ g := by
  rw [DigestMap.mem_iff_get?, mem_iff_value?, h.vertices]
  simp [value?]

/-- The tables refuse what the graph refuses, and stay as they are. -/
theorem insert_error (h : t.Represents g) {e : InsertError} (he : g.insert v = .error e) :
    t.insert v = (t, .error e) := by
  by_cases taken : v.id ∈ g
  · rw [Dag.insert_of_mem taken] at he
    cases he
    exact insert_of_mem (h.mem_vertices.2 taken)
  · have same : ∀ q, decide (q ∉ t.vertices) = decide (q ∉ g) :=
      fun q => decide_eq_decide.2 (not_congr h.mem_vertices)
    cases hfind : v.parents.toList.find? fun q => decide (q ∉ g) with
    | some q =>
      rw [insert_of_unknown taken hfind] at he
      cases he
      exact insert_of_missing (mt h.mem_vertices.1 taken) (by rw [funext same, hfind])
    | none =>
      obtain ⟨g', hg⟩ := exists_insert taken fun q hq => by
        simpa using List.find?_eq_none.1 hfind q hq
      rw [hg] at he
      cases he

/-- The tables take in what the graph takes in, each in its own way. -/
theorem insert_ok (h : t.Represents g) (hg : g.insert v = .ok g') :
    t.insert v = (t.put v, .ok ()) ∧ (t.put v).Represents g' := by
  refine ⟨insert_of_known (mt h.mem_vertices.1 (fresh_of_insert hg))
    fun p hp => h.mem_vertices.2 (known_of_insert hg p hp), ?_, ?_, ?_⟩
  · intro d
    rw [put, DigestMap.get?_insert, get?_insert hg, h.vertices]
  · rw [put, ids_insert hg, h.order]
  · intro p
    rw [childrenOf, put, getD_foldl_enter v.parents.nodup, children_insert hg, ← h.children,
      childrenOf]
    rfl

/-- Tables go on standing for a graph when the same is asked of both. -/
theorem grow (h : t.Represents g) (requests : List (Request α)) :
    (t.grow requests).Represents (g.grow requests) := by
  induction requests generalizing t g with
  | nil => exact h
  | cons r rest ih =>
    rw [Tables.grow, Dag.grow]
    cases hg : g.insert r.vertex with
    | error e =>
      rw [h.insert_error hg]
      exact ih h
    | ok g' =>
      obtain ⟨ht, h'⟩ := h.insert_ok hg
      rw [ht]
      exact ih h'

end Represents

theorem represents_ofRequests (requests : List (Request α)) :
    (ofRequests requests).Represents (.ofRequests requests) :=
  represents_empty.grow requests

/-- Whether `a` comes before `b` in the order of insertion. -/
def Precedes (t : Tables α) (a b : Digest) : Prop :=
  ∃ before after, t.order = before ++ b :: after ∧ a ∈ before

/-- What the three tables tell of each other. -/
structure Consistent (t : Tables α) : Prop where
  id_eq : ∀ d v, t.vertices.get? d = some v → v.id = d
  nodup_order : t.order.Nodup
  mem_order : ∀ d, d ∈ t.order ↔ d ∈ t.vertices
  parents : ∀ d v, t.vertices.get? d = some v → ∀ p ∈ v.parents,
    p ∈ t.vertices ∧ t.Precedes p d
  mem_children : ∀ p d, d ∈ t.childrenOf p ↔ ∃ v, t.vertices.get? d = some v ∧ p ∈ v.parents
  nodup_children : ∀ p, (t.childrenOf p).Nodup
  children_in_order : ∀ p, (t.childrenOf p).Sublist t.order
  childless : ∀ p, p ∉ t.vertices → t.childrenOf p = []

theorem Represents.consistent (h : t.Represents g) : t.Consistent where
  id_eq := by
    intro d v hv
    rw [h.vertices, get?_eq_some_iff] at hv
    exact hv.2
  nodup_order := by
    rw [h.order]
    exact g.nodup_ids
  mem_order := by
    intro d
    rw [h.order, mem_ids, h.mem_vertices]
  parents := by
    intro d v hv p hp
    rw [h.vertices, get?_eq_some_iff] at hv
    obtain ⟨hv, rfl⟩ := hv
    refine ⟨h.mem_vertices.2 (mem_of_mem_parents hv hp), ?_⟩
    rw [Tables.Precedes, h.order]
    exact precedes_of_parent hv hp
  mem_children := by
    intro p d
    simp only [h.children, h.vertices, Dag.mem_children, get?_eq_some_iff]
    constructor
    · rintro ⟨v, hv, hp, hid⟩
      exact ⟨v, ⟨hv, hid⟩, hp⟩
    · rintro ⟨v, ⟨hv, hid⟩, hp⟩
      exact ⟨v, hv, hp, hid⟩
  nodup_children := by
    intro p
    rw [h.children]
    exact g.nodup_children p
  children_in_order := by
    intro p
    rw [h.children, h.order]
    exact List.filter_sublist.map _
  childless := by
    intro p hp
    rw [h.children, List.eq_nil_iff_forall_not_mem]
    intro d hd
    obtain ⟨v, hv, hparent, _⟩ := Dag.mem_children.1 hd
    exact hp (h.mem_vertices.2 (mem_of_mem_parents hv hparent))

/-- Whatever has been asked of empty tables, the next insertion goes by the rule, and the three
tables tell the same as the graph that has grown by the same requests. -/
theorem tables_consistent (requests : List (Request α)) :
    (∀ r, (ofRequests requests).InsertRule r) ∧
    (ofRequests requests).Consistent ∧
    (ofRequests requests).Represents (.ofRequests requests) ∧
    ∀ r : Request α, ((ofRequests requests).insert r.vertex).2 =
      ((Dag.ofRequests requests).insert r.vertex).map fun _ => () := by
  have represents := represents_ofRequests requests
  refine ⟨insertRule _, represents.consistent, represents, ?_⟩
  intro r
  cases hg : (Dag.ofRequests requests).insert r.vertex with
  | error e =>
    rw [represents.insert_error hg]
    rfl
  | ok g' =>
    rw [(represents.insert_ok hg).1]
    rfl

end Dag.Tables

end Lineage
