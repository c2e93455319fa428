import Lineage.Json.Printer
import Lineage.Json.Reader
import Lineage.Octets.Hex
import Lineage.Key.Error
import Lineage.Text.Decimal

/-!
# Decoding values from JSON

A decoder takes a tree to a value. The fields of a record are decoded in the order in which the
text gives them, so that of several faults the first one in the text is reported. A record may
also be given as an array of its fields in the order of their declaration.
-/

namespace Lineage

/-- Why a text does not decode. -/
inductive DecodeError where
  /-- The text is not JSON, or not JSON of the shape that is asked for. -/
  | malformed
  | hex (e : Hex.Error)
  | key (e : KeyError)
  deriving DecidableEq

/-- What is said about a failure. It is reported together with its place in the text, and where
it ends like a place itself, as a name from the text may, these words count as the place. -/
def DecodeError.message? : DecodeError → Option String
  | .malformed => none
  | .hex e => some e.message
  | .key e => some (Text.withoutPlace e.message)

abbrev Decoder (α : Type) := Json → Except DecodeError α

namespace Decoder

def string : Decoder String
  | .string (.plain s) => .ok s
  | _ => .error .malformed

/-- A natural number of 64 bits. -/
def natural : Decoder Nat
  | .number n => if n < UInt64.size then .ok n else .error .malformed
  | _ => .error .malformed

def word64 : Decoder UInt64 := fun j => do return UInt64.ofNat (← natural j)

def bool : Decoder Bool
  | .bool b => .ok b
  | _ => .error .malformed

/-- Octets as hexadecimal text. -/
def octets : Decoder Octets := fun j => do
  match Hex.decode (← string j) with
  | .ok b => .ok b
  | .error e => .error (.hex e)

def word256 : Decoder Word256 := fun j => do
  match Hex.decodeWord (← string j) with
  | .ok w => .ok w
  | .error e => .error (.hex e)

def items (decode : Decoder α) : List Json → Except DecodeError (List α)
  | [] => .ok []
  | v :: rest => do
    let a ← decode v
    return a :: (← items decode rest)

def list (decode : Decoder α) : Decoder (List α)
  | .array vs => items decode vs
  | _ => .error .malformed

def pair (decode : Decoder α) : Decoder (α × α)
  | .array (v :: w :: rest) => do
    let a ← decode v
    let b ← decode w
    if rest.isEmpty then .ok (a, b) else .error .malformed
  | .array [v] => do
    let _ ← decode v
    .error .malformed
  | _ => .error .malformed

def optional (decode : Decoder α) : Decoder (Option α)
  | .null => .ok none
  | j => do return some (← decode j)

/-- The name of a constructor without fields, also written as the only key of an object whose
value is null. -/
def constructorName : Decoder String
  | .string (.plain name) => .ok name
  | .object [(.plain name, .null)] => .ok name
  | _ => .error .malformed

/-- The value that a name stands for. -/
def ofName (values : List (String × α)) (name : String) : Except DecodeError α :=
  match values.lookup name with
  | some a => .ok a
  | none => .error .malformed

/-- A value that is one of finitely many names, in either way of writing a constructor. -/
def oneOf (values : List (String × α)) : Decoder α := fun j => do
  ofName values (← constructorName j)

/-- A value that is one of finitely many names, written as a string. -/
def oneOfStrings (values : List (String × α)) : Decoder α := fun j => do
  ofName values (← string j)

/-- Passes over a value that is not needed. -/
def skip : Decoder Unit := fun j => if j.isWhole then .ok () else .error .malformed

end Decoder

/-- A field of a record: its name, and how its value is put into the fields decoded so far, which
fails when the field is there already. -/
structure Field (σ : Type) where
  name : String
  put : Json → σ → Except DecodeError σ

/-- The fields of a record in the order of their declaration, and the record without any. The
state is a nest of pairs with one option for each field. -/
structure Form (σ : Type) where
  fields : List (Field σ)
  blank : σ

namespace Form

def empty : Form Unit := ⟨[], ()⟩

/-- A field decoded by `decode` before the fields of `rest`. -/
def field (name : String) (decode : Decoder α) (rest : Form σ) : Form (Option α × σ) :=
  ⟨⟨name, fun j s =>
      match s.1 with
      | some _ => .error .malformed
      | none => do return (some (← decode j), s.2)⟩ ::
    rest.fields.map fun f => ⟨f.name, fun j s => do return (s.1, ← f.put j s.2)⟩,
    (none, rest.blank)⟩

/-- Takes one member of an object into the state. Members without a field are passed over. -/
def putMember (form : Form σ) (s : σ) : Json.Content × Json → Except DecodeError σ
  | (.plain name, v) =>
    match form.fields.find? (·.name = name) with
    | some f => f.put v s
    | none => do Decoder.skip v; return s
  | (.unpaired, _) => .error .malformed

def ofMembers (form : Form σ) (members : List (Json.Content × Json)) : Except DecodeError σ :=
  members.foldlM form.putMember form.blank

/-- Takes the values of an array into the fields in order; there may be fewer, but no more. -/
def putItems : List (Field σ) → List Json → σ → Except DecodeError σ
  | _, [], s => .ok s
  | [], _ :: _, _ => .error .malformed
  | f :: fields, v :: rest, s => do putItems fields rest (← f.put v s)

/-- The fields that an object or an array gives. -/
def read (form : Form σ) : Json → Except DecodeError σ
  | .object members => form.ofMembers members
  | .array values => putItems form.fields values form.blank
  | _ => .error .malformed

end Form

/-- Decodes a whole text; nothing but blanks may follow the value. -/
def Decoder.ofText (decode : Decoder α) (s : String) : Except DecodeError α := do
  let document := Json.Document.ofText s
  let a ← decode document.value
  if document.endsClean then return a else .error .malformed

/-- Octets as a hexadecimal JSON string. -/
def Octets.toJson (b : Octets) : Json := .string (Hex.text b)

def Word256.toJson (w : Word256) : Json := .string w.hex

def Json.word64 (n : UInt64) : Json := .number n.toNat

def Json.optional (encode : α → Json) : Option α → Json
  | none => .null
  | some a => encode a

end Lineage
