import Lineage.Octets
import Lineage.Text.Quoted

/-!
# Hexadecimal text

Octet strings are written with two lower-case digits to the octet. Both cases are read. A text is
refused for an odd number of octets before its digits are looked at, and where the length is
fixed also for a wrong length.
-/

namespace Lineage.Hex

/-- Why a text does not spell octets. -/
inductive Error where
  | oddLength
  | wrongLength
  | badDigit (octet : UInt8) (index : Nat)
  deriving DecidableEq, Repr

def Error.message : Error → String
  | .oddLength => "Odd number of digits"
  | .wrongLength => "Invalid string length"
  | .badDigit octet index =>
    s!"Invalid character {Text.quotedSingle (Char.ofNat octet.toNat)} at position {index}"

def encodeOctet (x : UInt8) : List Char :=
  [Nat.digitChar (x.toNat / 16), Nat.digitChar (x.toNat % 16)]

def encode (b : Octets) : List Char := b.flatMap encodeOctet

/-- The hexadecimal text of an octet string. -/
def text (b : Octets) : String := String.ofList (encode b)

/-- The value of a digit, given as the octet that stands for it. -/
def digit? (x : UInt8) : Option Nat :=
  let n := x.toNat
  if 48 ≤ n ∧ n ≤ 57 then some (n - 48)
  else if 97 ≤ n ∧ n ≤ 102 then some (n - 87)
  else if 65 ≤ n ∧ n ≤ 70 then some (n - 55)
  else none

def digit (x : UInt8) (index : Nat) : Except Error Nat :=
  match digit? x with
  | some n => .ok n
  | none => .error (.badDigit x index)

/-- Reads pairs of digits, the first of which stands at `index`. -/
def decodePairs : Nat → Octets → Except Error Octets
  | index, x :: y :: rest => do
    let high ← digit x index
    let low ← digit y (index + 1)
    let tail ← decodePairs (index + 2) rest
    return UInt8.ofNat (16 * high + low) :: tail
  | _, _ => .ok []

/-- The octets that a text spells. Lengths and positions count the octets of its UTF-8 form. -/
def decode (s : String) : Except Error Octets :=
  let b := Octets.ofText s.toList
  if b.length % 2 = 1 then .error .oddLength else decodePairs 0 b

/-- The 256-bit word that a text spells. -/
def decodeWord (s : String) : Except Error Word256 :=
  let b := Octets.ofText s.toList
  if b.length % 2 = 1 then .error .oddLength
  else if b.length ≠ 64 then .error .wrongLength
  else do
    let octets ← decodePairs 0 b
    if h : octets.length = 32 then return ⟨octets, h⟩ else .error .wrongLength

end Lineage.Hex

namespace Lineage.Word256

/-- The 64 digits of a word. -/
def hex (w : Word256) : String := Hex.text w.octets

end Lineage.Word256
