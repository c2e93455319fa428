import Lineage.Text.Decimal

/-!
# JSON values

A tree for JSON text, read or to be written. Two kinds of node are met only in trees that were
read: `cut` stands where the text stopped being JSON, and `Content.unpaired` is a string that no
sequence of characters spells. A reader of such a tree meets everything that stands before the
cut first, and may pass over an unpaired string that it does not need.
-/

namespace Lineage

namespace Json

/-- The content of a string. -/
inductive Content where
  /-- The characters of the string. -/
  | plain (s : String)
  /-- Some escape stands for half of a surrogate pair without its other half. -/
  | unpaired
  deriving DecidableEq

instance : Coe String Content := ⟨Content.plain⟩

end Json

inductive Json where
  | null
  | bool (b : Bool)
  /-- A number written with digits only. -/
  | number (n : Nat)
  /-- A number written with a sign, a fraction or an exponent: `digits * 10 ^ exponent`, up to
  its sign. -/
  | decimal (digits : Nat) (exponent : Int)
  | string (t : Json.Content)
  | array (items : List Json)
  | object (members : List (Json.Content × Json))
  /-- The text stops being JSON here. -/
  | cut

namespace Json

/-- The greatest number of containers in one another, for values that are not passed over. -/
def depthLimit : Nat := 127

mutual

/-- Whether the text of a value is JSON to its end. Only such a value can be passed over. -/
def isWhole : Json → Bool
  | .cut => false
  | .array items => isWholeItems items
  | .object members => isWholeMembers members
  | _ => true

def isWholeItems : List Json → Bool
  | [] => true
  | v :: rest => v.isWhole && isWholeItems rest

def isWholeMembers : List (Content × Json) → Bool
  | [] => true
  | (_, v) :: rest => v.isWhole && isWholeMembers rest

end

mutual

/-- Whether a value can be kept for later: its text is JSON to its end, its strings spell
characters, its numbers are finite, and it nests at most `depth` containers. -/
def isKeepable (depth : Nat) : Json → Bool
  | .null => true
  | .bool _ => true
  | .number n => Text.isFiniteRounded n 0
  | .decimal digits exponent => Text.isFiniteRounded digits exponent
  | .string t => t != .unpaired
  | .array items => 0 < depth && isKeepableItems (depth - 1) items
  | .object members => 0 < depth && isKeepableMembers (depth - 1) members
  | .cut => false

def isKeepableItems (depth : Nat) : List Json → Bool
  | [] => true
  | v :: rest => v.isKeepable depth && isKeepableItems depth rest

def isKeepableMembers (depth : Nat) : List (Content × Json) → Bool
  | [] => true
  | (k, v) :: rest => k != .unpaired && v.isKeepable depth && isKeepableMembers depth rest

end

end Json

end Lineage
