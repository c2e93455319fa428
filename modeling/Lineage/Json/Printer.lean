import Lineage.Json.Basic
import Lineage.Octets

/-!
# Writing JSON

The text is compact: no blanks, members in the order of the tree. Strings escape the quote, the
backslash and the characters below the space, and leave every other character as it is. What is
signed is written as octets at once: all that is escaped is one octet long.
-/

namespace Lineage.Json

/-- The form of one character inside a string. -/
def escape (c : Char) : List Char :=
  if c = '"' then ['\\', '"']
  else if c = '\\' then ['\\', '\\']
  else if c = '\x08' then ['\\', 'b']
  else if c = '\x0c' then ['\\', 'f']
  else if c = '\n' then ['\\', 'n']
  else if c = '\r' then ['\\', 'r']
  else if c = '\t' then ['\\', 't']
  else if c.toNat < 0x20 then
    ['\\', 'u', '0', '0', Nat.digitChar (c.toNat / 16), Nat.digitChar (c.toNat % 16)]
  else [c]

def renderString (s : String) : List Char := '"' :: s.toList.flatMap escape ++ ['"']

def renderContent : Content → List Char
  | .plain s => renderString s
  | .unpaired => []

mutual

/-- The text of a value. Values that stand for faulty text have none. -/
def render : Json → List Char
  | .null => ['n', 'u', 'l', 'l']
  | .bool true => ['t', 'r', 'u', 'e']
  | .bool false => ['f', 'a', 'l', 's', 'e']
  | .number n => Nat.toDigits 10 n
  | .decimal _ _ => []
  | .string t => renderContent t
  | .array items => '[' :: renderItems items
  | .object members => '\x7b' :: renderMembers members
  | .cut => []

/-- The values of an array, with the bracket that ends it. -/
def renderItems : List Json → List Char
  | [] => [']']
  | [v] => v.render ++ [']']
  | v :: rest => v.render ++ ',' :: renderItems rest

/-- The members of an object, with the brace that ends it. -/
def renderMembers : List (Content × Json) → List Char
  | [] => ['\x7d']
  | [(k, v)] => renderContent k ++ ':' :: v.render ++ ['\x7d']
  | (k, v) :: rest => renderContent k ++ ':' :: v.render ++ ',' :: renderMembers rest

end

/-- The text of a value as a string. -/
def text (j : Json) : String := String.ofList j.render

/-- The form of one octet inside a string. -/
def escapeOctet (x : UInt8) : Octets :=
  if x.toNat = 0x22 ∨ x.toNat = 0x5c ∨ x.toNat < 0x20 then
    Octets.ofText (escape (Char.ofNat x.toNat))
  else [x]

def stringOctets (s : String) : Octets :=
  Octets.ofText ['"'] ++ s.toByteArray.data.toList.flatMap escapeOctet ++ Octets.ofText ['"']

def contentOctets : Content → Octets
  | .plain s => stringOctets s
  | .unpaired => []

mutual

/-- The UTF-8 form of the text of a value. -/
def octets : Json → Octets
  | .null => Octets.ofText ['n', 'u', 'l', 'l']
  | .bool true => Octets.ofText ['t', 'r', 'u', 'e']
  | .bool false => Octets.ofText ['f', 'a', 'l', 's', 'e']
  | .number n => Octets.ofText (Nat.toDigits 10 n)
  | .decimal _ _ => []
  | .string t => contentOctets t
  | .array items => Octets.ofText ['['] ++ itemsOctets items
  | .object members => Octets.ofText ['\x7b'] ++ membersOctets members
  | .cut => []

def itemsOctets : List Json → Octets
  | [] => Octets.ofText [']']
  | [v] => v.octets ++ Octets.ofText [']']
  | v :: rest => v.octets ++ Octets.ofText [','] ++ itemsOctets rest

def membersOctets : List (Content × Json) → Octets
  | [] => Octets.ofText ['\x7d']
  | [(k, v)] => contentOctets k ++ Octets.ofText [':'] ++ v.octets ++ Octets.ofText ['\x7d']
  | (k, v) :: rest =>
    contentOctets k ++ Octets.ofText [':'] ++ v.octets ++ Octets.ofText [','] ++
      membersOctets rest

end

end Lineage.Json
