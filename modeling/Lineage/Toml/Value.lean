/-!
# TOML values and documents

A document is a list of statements: lines that give a key a value, and headers that open a table
for the lines after them. Tables remember how they came about, because that decides who may add
to them. Dotted keys extend only tables that dotted keys made; a header opens a table that was
only implied before, and goes through every table on its way.
-/

namespace Lineage.Toml

/-- How a table came about. -/
inductive TableKind where
  /-- By a header of its own, or as the root. -/
  | opened
  /-- As a step on the way of some header. -/
  | implied
  /-- As a step on the way of a dotted key. -/
  | dotted
  /-- Between braces. It is complete. -/
  | inline
  deriving DecidableEq, Repr

inductive Value where
  | string (s : String)
  | integer (n : Int)
  | boolean (b : Bool)
  /-- A number with fraction or exponent, or a point in time. -/
  | other
  | array (items : List Value)
  | table (kind : TableKind) (entries : List (String × Value))
  /-- Tables that were opened one after the other under one name, the last one first. -/
  | tables (lastFirst : List (List (String × Value)))

abbrev Entries := List (String × Value)

/-- Puts a value in the place of the entry of that key, or after all entries. -/
def Entries.put (key : String) (v : Value) : Entries → Entries
  | [] => [(key, v)]
  | (k, w) :: rest => if k = key then (k, v) :: rest else (k, w) :: Entries.put key v rest

/-- Changes the table at the end of a path, making the tables that are missing on the way. The
way of a dotted key passes only through tables that may still grow by such keys. -/
def descend (isDotted : Bool) (change : TableKind → Entries → Option (TableKind × Entries)) :
    List String → TableKind → Entries → Option (TableKind × Entries)
  | [], kind, entries => change kind entries
  | key :: path, kind, entries =>
    match entries.lookup key with
    | none => do
      let made := if isDotted then TableKind.dotted else .implied
      let (k, es) ← descend isDotted change path made []
      return (kind, Entries.put key (.table k es) entries)
    | some (.table k es) =>
      if k = .inline ∨ (isDotted ∧ k = .opened) then none
      else do
        let (k, es) ← descend isDotted change path k es
        return (kind, Entries.put key (.table k es) entries)
    | some (.tables (es :: earlier)) => do
      let (_, es) ← descend isDotted change path .opened es
      return (kind, Entries.put key (.tables (es :: earlier)) entries)
    | some _ => none

/-- Gives a key its value in a table that the path leads to. Keys that are not dotted stay out of
tables that dotted keys made, and the other way round. -/
def assign (path : List String) (key : String) (v : Value) (kind : TableKind) (entries : Entries) :
    Option (TableKind × Entries) :=
  descend (!path.isEmpty) (fun k es =>
    if decide (k = .dotted) = path.isEmpty ∨ (es.lookup key).isSome then none
    else some (k, es ++ [(key, v)])) path kind entries

/-- A line of a document. -/
inductive Statement where
  | assign (path : List String) (key : String) (v : Value)
  | openTable (path : List String) (key : String)
  | openElement (path : List String) (key : String)

/-- Where the lines after the last header belong. -/
inductive Place where
  | root
  | table (path : List String) (key : String)
  | element (path : List String) (key : String)

/-- A document in the course of reading: the tables that are complete, and the one that lines are
still put into. -/
structure Document where
  root : Entries
  current : Entries
  place : Place

namespace Document

def start : Document := ⟨[], [], .root⟩

/-- Puts the current table where it belongs. -/
def close (d : Document) : Option Entries :=
  match d.place with
  | .root => some d.current
  | .table path key => do
    let (_, root) ← descend false (fun k es =>
      some (k, es ++ [(key, .table .opened d.current)])) path .opened d.root
    return root
  | .element path key => do
    let (_, root) ← descend false (fun k es =>
      match es.lookup key with
      | some (.tables earlier) => some (k, Entries.put key (.tables (d.current :: earlier)) es)
      | _ => none) path .opened d.root
    return root

/-- The entries without that of a key. -/
def without (key : String) (es : Entries) : Entries := es.filter fun e => e.1 ≠ key

/-- The table at the end of a path, while it is looked up for a header. -/
def follow (path : List String) (root : Entries) : Option Entries :=
  match path, root with
  | [], es => some es
  | key :: path, es =>
    match es.lookup key with
    | none => some []
    | some (.table .inline _) => none
    | some (.table _ inner) => follow path inner
    | some (.tables (inner :: _)) => follow path inner
    | some _ => none

def run (d : Document) : Statement → Option Document
  | .assign path key v => do
    let (_, current) ← Toml.assign path key v .opened d.current
    return { d with current }
  | .openTable path key => do
    let root ← d.close
    let found ← follow path root
    match found.lookup key with
    | none => do
      let (_, root) ← descend false (fun k es => some (k, es)) path .opened root
      return ⟨root, [], .table path key⟩
    | some (.table .implied inner) => do
      let (_, root) ← descend false (fun k es => some (k, without key es)) path .opened root
      return ⟨root, inner, .table path key⟩
    | some _ => none
  | .openElement path key => do
    let root ← d.close
    let found ← follow path root
    match found.lookup key with
    | none => do
      let (_, root) ← descend false (fun k es => some (k, es ++ [(key, .tables [])])) path .opened root
      return ⟨root, [], .element path key⟩
    | some (.tables _) => return ⟨root, [], .element path key⟩
    | some _ => none

/-- The root table that statements give, unless one of them conflicts with earlier ones. -/
def ofStatements (ss : List Statement) : Option Entries := do
  (← ss.foldlM run start).close

end Document

end Lineage.Toml
