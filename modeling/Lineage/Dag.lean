import Lineage.Digest

/-!
# Append-only graphs

A vertex carries a value and names its parents, which have to be in the graph before it. So the
order of insertion lists every vertex after its ancestors, and one walk from the newest vertex to
the oldest finds all ancestors of a vertex. Nothing is ever changed or taken out.
-/

namespace Lineage

structure Vertex (α : Type) where
  id : Digest
  value : α
  parents : DigestSet

namespace Vertex

def toJson (encode : α → Json) (v : Vertex α) : Json :=
  .object [("id", v.id.toJson), ("value", encode v.value), ("parents", v.parents.toJson)]

def decode (value : Decoder α) : Decoder (Vertex α) := fun j => do
  let form := Form.field "id" Decoder.word256 <| .field "value" value <|
    .field "parents" DigestSet.decode .empty
  match ← form.read j with
  | (some id, some value, some parents, ()) => return ⟨id, value, parents⟩
  | _ => .error .malformed

end Vertex

/-- The vertices of a graph, newest first: each has an id of its own, and its parents are among
the older ones. -/
inductive Grown {α : Type} : List (Vertex α) → Prop where
  | nil : Grown []
  | cons {v : Vertex α} {older : List (Vertex α)} (fresh : v.id ∉ older.map (·.id))
      (known : ∀ p ∈ v.parents, p ∈ older.map (·.id)) (grown : Grown older) : Grown (v :: older)

structure Dag (α : Type) where
  newestFirst : List (Vertex α)
  grown : Grown newestFirst

namespace Dag

/-- Why a vertex cannot be inserted. -/
inductive InsertError where
  | duplicate (id : Digest)
  | unknownParent (id : Digest)
  deriving DecidableEq

def InsertError.message : InsertError → String
  | .duplicate id => "vertex already exists: " ++ id.hex
  | .unknownParent id => "unknown parent vertex: " ++ id.hex

@[ext] theorem ext {g h : Dag α} (e : g.newestFirst = h.newestFirst) : g = h := by
  cases g; cases h; simp_all

def empty : Dag α := ⟨[], .nil⟩

instance : EmptyCollection (Dag α) := ⟨empty⟩

instance : Inhabited (Dag α) := ⟨empty⟩

/-- The vertices in insertion order. -/
def vertices (g : Dag α) : List (Vertex α) := g.newestFirst.reverse

/-- The ids in insertion order. -/
def ids (g : Dag α) : List Digest := g.vertices.map (·.id)

instance : Membership Digest (Dag α) := ⟨fun g d => d ∈ g.newestFirst.map (·.id)⟩

theorem mem_def {d : Digest} {g : Dag α} : d ∈ g ↔ d ∈ g.newestFirst.map (·.id) := Iff.rfl

instance (d : Digest) (g : Dag α) : Decidable (d ∈ g) :=
  inferInstanceAs (Decidable (d ∈ g.newestFirst.map (·.id)))

@[simp] theorem mem_ids {d : Digest} {g : Dag α} : d ∈ g.ids ↔ d ∈ g := by
  simp [ids, vertices, mem_def]

@[simp] theorem not_mem_empty {d : Digest} : ¬ d ∈ (∅ : Dag α) := List.not_mem_nil

def size (g : Dag α) : Nat := g.newestFirst.length

def get? (g : Dag α) (id : Digest) : Option (Vertex α) := g.newestFirst.find? (·.id = id)

def value? (g : Dag α) (id : Digest) : Option α := (g.get? id).map (·.value)

/-- Appends a vertex. A vertex whose id is taken is refused before its parents are looked at; of
several missing parents the least is reported. -/
def insert (g : Dag α) (v : Vertex α) : Except InsertError (Dag α) :=
  if fresh : v.id ∈ g then .error (.duplicate v.id)
  else
    match known : v.parents.toList.find? (fun p => decide (p ∉ g)) with
    | some p => .error (.unknownParent p)
    | none => .ok ⟨v :: g.newestFirst,
        .cons fresh (fun p hp => Decidable.byContradiction fun h =>
          List.find?_eq_none.1 known p hp (decide_eq_true h)) g.grown⟩

/-- The vertices that name `id` as a parent, in insertion order. -/
def children (g : Dag α) (id : Digest) : List Digest :=
  (g.vertices.filter fun v => decide (id ∈ v.parents)).map (·.id)

/-- Walks down from the newest vertex; the parents of `id` and of every vertex reached so far are
reached. -/
def reach (id : Digest) : List (Vertex α) → DigestSet → DigestSet
  | [], reached => reached
  | v :: older, reached =>
    if v.id = id ∨ v.id ∈ reached then reach id older (reached.insertAll v.parents.toList)
    else reach id older reached

/-- All vertices that are reached from `id` by one or more parent edges. -/
def ancestors (g : Dag α) (id : Digest) : DigestSet := reach id g.newestFirst ∅

/-- The same walk, which stops as soon as `target` is reached. -/
def reaches (target id : Digest) : List (Vertex α) → DigestSet → Bool
  | [], _ => false
  | v :: older, reached =>
    if v.id = id ∨ v.id ∈ reached then
      decide (target ∈ v.parents) ||
        reaches target id older (reached.insertAll v.parents.toList)
    else reaches target id older reached

/-- Whether `ancestor` is reached from `descendant` by one or more parent edges. -/
def isAncestor (g : Dag α) (ancestor descendant : Digest) : Bool :=
  ancestor != descendant && reaches ancestor descendant g.newestFirst ∅

/-- Whether one of two vertices is an ancestor of the other. -/
def related (g : Dag α) (a b : Digest) : Bool := g.isAncestor a b || g.isAncestor b a

end Dag

end Lineage
