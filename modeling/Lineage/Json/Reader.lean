import Lineage.Json.Basic

/-!
# Reading JSON

A text is read into a tree in one pass. Reading never fails: where the text stops being JSON the
tree ends in `cut`. The functions below return what they read together with the text that
follows it, or `none` in its place after a cut.
-/

namespace Lineage.Json

open Lineage.Text (hexDigit? isDigit digitsValue)

def isBlank (c : Char) : Bool := c = ' ' || c = '\n' || c = '\t' || c = '\r'

def skipBlanks (cs : List Char) : List Char := cs.dropWhile isBlank

/-- The number that four hexadecimal digits spell. -/
def hexUnit? (a b c d : Char) : Option Nat := do
  return 4096 * (← hexDigit? a) + 256 * (← hexDigit? b) + 16 * (← hexDigit? c) + (← hexDigit? d)

/-- The character that a letter after a backslash stands for. -/
def unescape? : Char → Option Char
  | '"' => some '"'
  | '\\' => some '\\'
  | '/' => some '/'
  | 'b' => some '\x08'
  | 'f' => some '\x0c'
  | 'n' => some '\n'
  | 'r' => some '\r'
  | 't' => some '\t'
  | _ => none

/-- The code points of a string up to its closing quote, and the text after it. Escapes may give
halves of surrogate pairs here. -/
def stringUnits : List Char → Option (List Nat × List Char)
  | [] => none
  | '"' :: rest => some ([], rest)
  | '\\' :: 'u' :: a :: b :: c :: d :: rest => do
    let unit ← hexUnit? a b c d
    let (units, after) ← stringUnits rest
    return (unit :: units, after)
  | '\\' :: c :: rest => do
    let c ← unescape? c
    let (units, after) ← stringUnits rest
    return (c.toNat :: units, after)
  | c :: rest =>
    if c.toNat < 0x20 then none
    else do
      let (units, after) ← stringUnits rest
      return (c.toNat :: units, after)

def isHighHalf (n : Nat) : Bool := 0xd800 ≤ n && n < 0xdc00

def isLowHalf (n : Nat) : Bool := 0xdc00 ≤ n && n < 0xe000

/-- The characters that code points spell, where two halves of a pair spell one character. -/
def joinUnits : List Nat → Option (List Char)
  | [] => some []
  | high :: low :: rest =>
    if isHighHalf high then
      if isLowHalf low then
        (joinUnits rest).map
          (Char.ofNat (0x10000 + (high - 0xd800) * 0x400 + (low - 0xdc00)) :: ·)
      else none
    else if isLowHalf high then none
    else (joinUnits (low :: rest)).map (Char.ofNat high :: ·)
  | [unit] => if isHighHalf unit || isLowHalf unit then none else some [Char.ofNat unit]

/-- A string from after its opening quote. -/
def readString (cs : List Char) : Option (Content × List Char) := do
  let (units, rest) ← stringUnits cs
  match joinUnits units with
  | some s => return (.plain (String.ofList s), rest)
  | none => return (.unpaired, rest)

/-- The digits that a text starts with, and the rest. -/
def spanDigits (cs : List Char) : List Char × List Char :=
  (cs.takeWhile isDigit, cs.dropWhile isDigit)

/-- The digits before the point: one zero, or digits that do not start with one. -/
def readWhole (cs : List Char) : Option (List Char × List Char) :=
  match spanDigits cs with
  | ([], _) => none
  | (['0'], rest) => some (['0'], rest)
  | ('0' :: _, _) => none
  | (ds, rest) => some (ds, rest)

/-- The digits after the point, none when there is no point. -/
def readFraction : List Char → Option (List Char × List Char)
  | '.' :: rest =>
    match spanDigits rest with
    | ([], _) => none
    | (ds, rest) => some (ds, rest)
  | cs => some ([], cs)

/-- The exponent with its sign; `none` inside when there is none. -/
def readExponent : List Char → Option (Option Int × List Char)
  | c :: rest =>
    if c = 'e' ∨ c = 'E' then
      let (negative, rest) := match rest with
        | '-' :: rest => (true, rest)
        | '+' :: rest => (false, rest)
        | rest => (false, rest)
      match spanDigits rest with
      | ([], _) => none
      | (ds, rest) =>
        let n : Int := digitsValue ds
        some (some (if negative then -n else n), rest)
    else some (none, c :: rest)
  | [] => some (none, [])

def readNumber (cs : List Char) : Option (Json × List Char) := do
  let (negative, cs) := match cs with
    | '-' :: cs => (true, cs)
    | cs => (false, cs)
  let (whole, cs) ← readWhole cs
  let (fraction, cs) ← readFraction cs
  let (exponent, cs) ← readExponent cs
  if negative || !fraction.isEmpty || exponent.isSome then
    return (.decimal (digitsValue (whole ++ fraction))
      (exponent.getD 0 - (fraction.length : Int)), cs)
  else return (.number (digitsValue whole), cs)

/-- A value as `read` finds it, up to the bracket that ends an array; the text stands after the
opening bracket or after a comma. -/
def readItems (read : List Char → Json × Option (List Char)) :
    Nat → List Char → List Json × Option (List Char)
  | 0, _ => ([.cut], none)
  | fuel + 1, cs =>
    match read cs with
    | (v, none) => ([v], none)
    | (v, some rest) =>
      match skipBlanks rest with
      | ',' :: rest =>
        let (vs, after) := readItems read fuel rest
        (v :: vs, after)
      | ']' :: rest => ([v], some rest)
      | _ => ([v, .cut], none)

/-- The members of an object up to the brace that ends it, with values as `read` finds them. -/
def readMembers (read : List Char → Json × Option (List Char)) :
    Nat → List Char → List (Content × Json) × Option (List Char)
  | 0, _ => ([(.unpaired, .cut)], none)
  | fuel + 1, cs =>
    match skipBlanks cs with
    | '"' :: rest =>
      match readString rest with
      | none => ([(.unpaired, .cut)], none)
      | some (k, rest) =>
        match skipBlanks rest with
        | ':' :: rest =>
          match read rest with
          | (v, none) => ([(k, v)], none)
          | (v, some rest) =>
            match skipBlanks rest with
            | ',' :: rest =>
              let (ms, after) := readMembers read fuel rest
              ((k, v) :: ms, after)
            | '\x7d' :: rest => ([(k, v)], some rest)
            | _ => ([(k, v), (.unpaired, .cut)], none)
        | _ => ([(k, .cut)], none)
    | _ => ([(.unpaired, .cut)], none)

/-- The value that a text starts with. Every container takes one unit of fuel, and so does every
value inside it. -/
def read : Nat → List Char → Json × Option (List Char)
  | 0, _ => (.cut, none)
  | fuel + 1, cs =>
    match skipBlanks cs with
    | 'n' :: 'u' :: 'l' :: 'l' :: rest => (.null, some rest)
    | 't' :: 'r' :: 'u' :: 'e' :: rest => (.bool true, some rest)
    | 'f' :: 'a' :: 'l' :: 's' :: 'e' :: rest => (.bool false, some rest)
    | '"' :: rest =>
      match readString rest with
      | some (t, rest) => (.string t, some rest)
      | none => (.cut, none)
    | '[' :: rest =>
      match skipBlanks rest with
      | ']' :: rest => (.array [], some rest)
      | rest =>
        let (vs, after) := readItems (read fuel) fuel rest
        (.array vs, after)
    | '\x7b' :: rest =>
      match skipBlanks rest with
      | '\x7d' :: rest => (.object [], some rest)
      | rest =>
        let (ms, after) := readMembers (read fuel) fuel rest
        (.object ms, after)
    | cs =>
      match readNumber cs with
      | some (v, rest) => (v, some rest)
      | none => (.cut, none)

/-- A value and whether nothing but blanks follows it. -/
structure Document where
  value : Json
  endsClean : Bool

/-- Reads a whole text. Its length bounds the number of values and of containers in it. -/
def Document.ofText (s : String) : Document :=
  let cs := s.toList
  match read (cs.length + 1) cs with
  | (v, some rest) => ⟨v, (skipBlanks rest).isEmpty⟩
  | (v, none) => ⟨v, false⟩

end Lineage.Json
