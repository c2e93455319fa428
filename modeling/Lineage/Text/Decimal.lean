/-!
# Numbers in texts

Formats that allow fractions and exponents still refuse numbers too large for a binary float of
64 bits, which has 53 significant bits. A format either decides exactly whether a number is that
large, or takes its leading digits and a power of ten, rounds both, and looks at their product. A
report on a document ends with the place that it is about, as in `odd count at line 3 column 5`.
-/

namespace Lineage.Text

/-- The least magnitude that rounds to infinity with 53 bits of precision and exponents up to
1023: half a unit above the greatest finite number. -/
def floatLimit : Nat := Nat.pow 2 1024 - Nat.pow 2 970

/-- Whether `digits * 10 ^ exponent` stays below the limit. The limit has 309 digits, and only a
number with as many places is multiplied out. -/
def isFinite (digits : Nat) (exponent : Int) : Bool :=
  let places := (Nat.toDigits 10 digits).length + exponent
  if digits = 0 ∨ places < 309 then true
  else if 309 < places then false
  else if 0 ≤ exponent then digits * Nat.pow 10 exponent.toNat < floatLimit
  else digits < floatLimit * Nat.pow 10 (-exponent).toNat

/-- The nearest number with 53 significant bits; of two that are equally near, the even one. -/
def roundToFloat (n : Nat) : Nat :=
  let unit := Nat.pow 2 (n.log2 - 52)
  let low := n / unit
  let rest := n % unit
  if unit < 2 * rest ∨ (unit = 2 * rest ∧ low % 2 = 1) then (low + 1) * unit else low * unit

/-- As many leading digits as fit into 64 bits, and the number of digits that are left out. -/
def leadingDigits (n : Nat) : Nat × Nat :=
  let surplus := (Nat.toDigits 10 n).length - 20
  let head := n / Nat.pow 10 surplus
  if head < UInt64.size then (head, surplus) else (head / 10, surplus + 1)

/-- Whether `digits * 10 ^ exponent` stays below the limit when its leading digits and the power
of ten that they are to be multiplied by are each rounded first. -/
def isFiniteRounded (digits : Nat) (exponent : Int) : Bool :=
  let (head, surplus) := leadingDigits digits
  let places := exponent + surplus
  if head = 0 ∨ places < 0 then true
  else if 308 < places then false
  else roundToFloat head * roundToFloat (Nat.pow 10 places.toNat) < floatLimit

def isDigit (c : Char) : Bool := '0' ≤ c && c ≤ '9'

/-- The number that decimal digits spell. -/
def digitsValue (cs : List Char) : Nat := cs.foldl (fun n c => 10 * n + (c.toNat - 48)) 0

/-- The value of a hexadecimal digit of either case. -/
def hexDigit? (c : Char) : Option Nat :=
  if '0' ≤ c ∧ c ≤ '9' then some (c.toNat - 48)
  else if 'a' ≤ c ∧ c ≤ 'f' then some (c.toNat - 87)
  else if 'A' ≤ c ∧ c ≤ 'F' then some (c.toNat - 55)
  else none

/-- What stands before a number of 64 bits at the end of a text. The text and what stands before
the number are read backwards. -/
def beforeNumber? (backwards : List Char) : Option (List Char) :=
  let digits := backwards.takeWhile isDigit
  if digits.isEmpty ∨ UInt64.size ≤ digitsValue digits.reverse then none
  else some (backwards.drop digits.length)

/-- What stands before a place at the end of a text, if the text ends with one. -/
def beforePlace? (s : String) : Option String := do
  let beforeColumn ← beforeNumber? s.toList.reverse
  let line ← " column ".toList.reverse.isPrefixOf? beforeColumn
  let beforeLine ← beforeNumber? line
  let report ← " at line ".toList.reverse.isPrefixOf? beforeLine
  return String.ofList report.reverse

/-- A text without the place at its end. Of several places the last one is left out. -/
def withoutPlace (s : String) : String := (beforePlace? s).getD s

end Lineage.Text
