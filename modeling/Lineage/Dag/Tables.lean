import Lineage.Dag
import Lineage.Digest.Map

/-!
# Graphs in tables

For quick answers a graph is kept in three tables: the vertices under their ids, the ids in the
order in which they came, and under each id the vertices that name it as a parent. The tables
repeat each other, and an insertion has to bring all three up to date. Ancestors are looked for
from a vertex upwards, by a loop with a stack of the ids that are still to be visited and a set of
those that have been found.
-/

namespace Lineage.Dag

/-- A vertex as it is given for insertion, with its parents in any order and with repetitions. -/
structure Request (α : Type) where
  id : Digest
  value : α
  parents : List Digest

def Request.vertex (r : Request α) : Vertex α := ⟨r.id, r.value, .ofList r.parents⟩

/-- The graph after some insertions, each of which may be refused. -/
def grow (g : Dag α) : List (Request α) → Dag α
  | [] => g
  | r :: rest =>
    match g.insert r.vertex with
    | .ok g => g.grow rest
    | .error _ => g.grow rest

/-- The graph that grows by some requests. -/
def ofRequests (requests : List (Request α)) : Dag α := (∅ : Dag α).grow requests

structure Tables (α : Type) where
  vertices : DigestMap (Vertex α)
  /-- The ids in insertion order. -/
  order : List Digest
  /-- Under each id the vertices that name it as a parent, in insertion order. -/
  children : DigestMap (List Digest)

namespace Tables

def empty : Tables α := ⟨∅, [], ∅⟩

instance : EmptyCollection (Tables α) := ⟨empty⟩

/-- The vertices that name `id` as a parent, none if there is no entry for it. -/
def childrenOf (t : Tables α) (id : Digest) : List Digest := (t.children.get? id).getD []

/-- Enters a vertex as the last child of one of its parents. -/
def enter (child : Digest) (index : DigestMap (List Digest)) (parent : Digest) :
    DigestMap (List Digest) :=
  index.insert parent ((index.get? parent).getD [] ++ [child])

/-- Brings all three tables up to date. -/
def put (t : Tables α) (v : Vertex α) : Tables α :=
  ⟨t.vertices.insert v.id v, t.order ++ [v.id], v.parents.toList.foldl (enter v.id) t.children⟩

/-- Inserts a vertex, and gives the tables after it together with the result. -/
def insert (t : Tables α) (v : Vertex α) : Tables α × Except InsertError Unit :=
  if v.id ∈ t.vertices then (t, .error (.duplicate v.id))
  else
    match v.parents.toList.find? fun p => decide (p ∉ t.vertices) with
    | some p => (t, .error (.unknownParent p))
    | none => (t.put v, .ok ())

/-- The tables after some insertions, each of which may be refused. -/
def grow (t : Tables α) : List (Request α) → Tables α
  | [] => t
  | r :: rest => (t.insert r.vertex).1.grow rest

/-- The tables that are filled by some requests. -/
def ofRequests (requests : List (Request α)) : Tables α := empty.grow requests

end Tables

/-- What a loop answers, if it ends within `n` rounds. A round goes on with another state or ends
with an answer. -/
def loopWithin {σ ρ : Type} (round : σ → σ ⊕ ρ) : Nat → σ → Option ρ
  | 0, _ => none
  | n + 1, s =>
    match round s with
    | .inl s => loopWithin round n s
    | .inr answer => some answer

/-- A search under way: a stack of ids that are still to be visited, and the ids found so far. -/
structure Search where
  pending : List Digest
  found : DigestSet

namespace Search

def start (id : Digest) : Search := ⟨[id], ∅⟩

/-- Notes a parent of the id that is visited. It is visited in turn, unless it was found before. -/
def note (s : Search) (p : Digest) : Search :=
  if p ∈ s.found then s else ⟨p :: s.pending, s.found.insert p⟩

/-- Notes parents up to the one that is looked for. -/
def noteUntil (target : Digest) : List Digest → Search → Search ⊕ Bool
  | [], s => .inl s
  | p :: rest, s => if p = target then .inr true else noteUntil target rest (s.note p)

end Search

namespace Tables

/-- A round of the loop that finds all ancestors. -/
def collect (t : Tables α) (s : Search) : Search ⊕ DigestSet :=
  match s.pending with
  | [] => .inr s.found
  | id :: rest =>
    match t.vertices.get? id with
    | none => .inl ⟨rest, s.found⟩
    | some v => .inl (v.parents.toList.foldl Search.note ⟨rest, s.found⟩)

/-- A round of the loop that looks for one ancestor. -/
def seek (t : Tables α) (target : Digest) (s : Search) : Search ⊕ Bool :=
  match s.pending with
  | [] => .inr false
  | id :: rest =>
    match t.vertices.get? id with
    | none => .inl ⟨rest, s.found⟩
    | some v => Search.noteUntil target v.parents.toList ⟨rest, s.found⟩

/-- The ancestors of `id`, if `n` rounds are enough to find them. -/
def ancestorsWithin (t : Tables α) (n : Nat) (id : Digest) : Option DigestSet :=
  loopWithin t.collect n (.start id)

/-- Whether one id is an ancestor of another one, if `n` rounds are enough to tell. -/
def isAncestorWithin (t : Tables α) (n : Nat) (ancestor descendant : Digest) : Option Bool :=
  if ancestor = descendant then some false
  else loopWithin (t.seek ancestor) n (.start descendant)

/-- Whether one of two ids is an ancestor of the other, if `n` rounds for each are enough. -/
def relatedWithin (t : Tables α) (n : Nat) (a b : Digest) : Option Bool := do
  if ← t.isAncestorWithin n a b then return true
  t.isAncestorWithin n b a

end Tables

end Lineage.Dag
