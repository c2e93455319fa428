import Lineage.Text.Decimal
import Lineage.Toml.Value

/-!
# Reading TOML 1.0

Each function reads one piece of syntax from the front of a text and returns it with the text
that follows, or nothing where the text has no such piece. No message says what is wrong with a
text that is refused.
-/

namespace Lineage.Toml

open Lineage.Text (hexDigit? isDigit digitsValue isFinite)

def isBlank (c : Char) : Bool := c = ' ' || c = '\t'

def skipBlanks (cs : List Char) : List Char := cs.dropWhile isBlank

/-- A tab or a character that is no control. -/
def isVisible (c : Char) : Bool := c = '\t' || (0x20 ≤ c.toNat && c.toNat ≠ 0x7f)

def newline? : List Char → Option (List Char)
  | '\n' :: rest => some rest
  | '\r' :: '\n' :: rest => some rest
  | _ => none

/-- A comment, if there is one. -/
def skipComment : List Char → List Char
  | '#' :: rest => rest.dropWhile isVisible
  | cs => cs

/-- What may stand between the end of a statement and the next line. -/
def lineEnd? (cs : List Char) : Option (List Char) :=
  match skipComment (skipBlanks cs) with
  | [] => some []
  | rest => newline? rest

/-- Blanks, line ends and comments, as they may stand between the values of an array. -/
def skipFiller : Nat → List Char → List Char
  | 0, cs => cs
  | fuel + 1, cs =>
    match skipComment (skipBlanks cs) with
    | [] => []
    | rest =>
      match newline? rest with
      | some rest => skipFiller fuel rest
      | none => if (skipBlanks cs).head? = some '#' then skipBlanks cs else rest

/-- The character with the code that hexadecimal digits spell. -/
def codePoint? (digits : List Char) : Option Char := do
  let n ← digits.foldlM (fun n c => do return 16 * n + (← hexDigit? c)) 0
  if n.isValidChar then some (Char.ofNat n) else none

/-- The character of an escape, from after its backslash. -/
def escape? : List Char → Option (Char × List Char)
  | 'b' :: rest => some ('\x08', rest)
  | 't' :: rest => some ('\t', rest)
  | 'n' :: rest => some ('\n', rest)
  | 'f' :: rest => some ('\x0c', rest)
  | 'r' :: rest => some ('\r', rest)
  | '"' :: rest => some ('"', rest)
  | '\\' :: rest => some ('\\', rest)
  | 'u' :: rest =>
    if 4 ≤ rest.length then (codePoint? (rest.take 4)).map (·, rest.drop 4) else none
  | 'U' :: rest =>
    if 8 ≤ rest.length then (codePoint? (rest.take 8)).map (·, rest.drop 8) else none
  | _ => none

/-- A string with escapes on one line, from after its opening quote. -/
def basicString : Nat → List Char → Option (List Char × List Char)
  | 0, _ => none
  | fuel + 1, cs =>
    match cs with
    | '"' :: rest => some ([], rest)
    | '\\' :: rest => do
      let (c, rest) ← escape? rest
      let (s, rest) ← basicString fuel rest
      return (c :: s, rest)
    | c :: rest =>
      if isVisible c then do
        let (s, rest) ← basicString fuel rest
        return (c :: s, rest)
      else none
    | [] => none

/-- A string without escapes on one line, from after its opening quote. -/
def literalString (cs : List Char) : Option (List Char × List Char) :=
  match cs.span fun c => isVisible c && c ≠ '\x27' with
  | (s, '\x27' :: rest) => some (s, rest)
  | _ => none

/-- The quotes that end a string over several lines, of which up to two more than the closing
three belong to its content. -/
def closing? (quote : Char) (cs : List Char) : Option (List Char × List Char) :=
  let count := (cs.take 5).takeWhile (· = quote) |>.length
  if 3 ≤ count then some (List.replicate (count - 3) quote, cs.drop count) else none

/-- Blanks and line ends, as a backslash at the end of a line passes over them. -/
def skipBlankLines : Nat → List Char → List Char
  | 0, cs => cs
  | fuel + 1, cs =>
    match newline? (skipBlanks cs) with
    | some rest => skipBlankLines fuel rest
    | none => skipBlanks cs

/-- A string over several lines, from after its opening quotes and a line end next to them; it
has escapes unless it is `literal`. -/
def longString (literal : Bool) (quote : Char) : Nat → List Char → Option (List Char × List Char)
  | 0, _ => none
  | fuel + 1, cs =>
    match closing? quote cs, newline? cs with
    | some found, _ => some found
    | none, some rest => do
      let (s, rest) ← longString literal quote fuel rest
      return ('\n' :: s, rest)
    | none, none =>
      match cs with
      | [] => none
      | c :: rest =>
        if c = '\\' && !literal then
          match newline? (skipBlanks rest) with
          | some rest => longString literal quote fuel (skipBlankLines rest.length rest)
          | none => do
            let (c, rest) ← escape? rest
            let (s, rest) ← longString literal quote fuel rest
            return (c :: s, rest)
        else if isVisible c then do
          let (s, rest) ← longString literal quote fuel rest
          return (c :: s, rest)
        else none

/-- The text without a line end at its front. -/
def dropNewline (cs : List Char) : List Char := (newline? cs).getD cs

def string? (cs : List Char) : Option (List Char × List Char) :=
  match cs with
  | '"' :: '"' :: '"' :: rest => longString false '"' (rest.length + 1) (dropNewline rest)
  | '\x27' :: '\x27' :: '\x27' :: rest =>
    longString true '\x27' (rest.length + 1) (dropNewline rest)
  | '"' :: rest => basicString (rest.length + 1) rest
  | '\x27' :: rest => literalString rest
  | _ => none

def isBareKey (c : Char) : Bool := c.isAlphanum || c = '-' || c = '_'

/-- One key: quoted on one line, or bare. -/
def simpleKey? (cs : List Char) : Option (String × List Char) :=
  match cs with
  | '"' :: rest => (basicString (rest.length + 1) rest).map fun (s, r) => (String.ofList s, r)
  | '\x27' :: rest => (literalString rest).map fun (s, r) => (String.ofList s, r)
  | _ =>
    match cs.span isBareKey with
    | ([], _) => none
    | (s, rest) => some (String.ofList s, rest)

/-- Keys with points between them, and blanks around each. -/
def dottedKey? : Nat → List Char → Option (List String × List Char)
  | 0, _ => none
  | fuel + 1, cs => do
    let (key, rest) ← simpleKey? (skipBlanks cs)
    match skipBlanks rest with
    | '.' :: rest => do
      let (keys, rest) ← dottedKey? fuel rest
      return (key :: keys, rest)
    | rest => return ([key], rest)

/-- The greatest depth of arrays and inline tables in one another, and the greatest number of
keys with points between them. -/
def depthLimit : Nat := 79

/-- A key as the path to its table and its last part. -/
def key? (cs : List Char) : Option ((List String × String) × List Char) := do
  let (keys, rest) ← dottedKey? depthLimit cs
  let last ← keys.getLast?
  return ((keys.dropLast, last), rest)

/-- Digits with single underscores between them. -/
def underscored (isDigit : Char → Bool) : List Char → Option (List Char × List Char)
  | [] => none
  | c :: rest =>
    if isDigit c then
      match rest with
      | '_' :: d :: rest' =>
        if isDigit d then
          (underscored isDigit (d :: rest')).map fun (ds, r) => (c :: ds, r)
        else none
      | ['_'] => none
      | d :: rest' =>
        if isDigit d then
          (underscored isDigit (d :: rest')).map fun (ds, r) => (c :: ds, r)
        else some ([c], d :: rest')
      | [] => some ([c], [])
    else none

def sign? : List Char → Bool × List Char
  | '-' :: rest => (true, rest)
  | '+' :: rest => (false, rest)
  | cs => (false, cs)

/-- The digits of a decimal integer: a single zero, or digits that do not start with one. -/
def wholeDigits? : List Char → Option (List Char × List Char)
  | '0' :: rest => some (['0'], rest)
  | cs => underscored isDigit cs

/-- An integer of 64 bits with a sign. -/
def inRange? (n : Int) : Option Int :=
  if Int64.minValue.toInt ≤ n ∧ n ≤ Int64.maxValue.toInt then some n else none

/-- An integer in the given base, from after the letter that names the base. -/
def radixInteger? (base : Nat) (cs : List Char) : Option (Value × List Char) := do
  let (ds, rest) ← underscored (fun c => (hexDigit? c).any (· < base)) cs
  let n := ds.foldl (fun n c => base * n + (hexDigit? c).getD 0) 0
  return (.integer (← inRange? n), rest)

def integer? : List Char → Option (Value × List Char)
  | '0' :: 'x' :: rest => radixInteger? 16 rest
  | '0' :: 'o' :: rest => radixInteger? 8 rest
  | '0' :: 'b' :: rest => radixInteger? 2 rest
  | cs => do
    let (negative, cs) := sign? cs
    let (ds, rest) ← wholeDigits? cs
    let n : Int := digitsValue ds
    return (.integer (← inRange? (if negative then -n else n)), rest)

/-- The exponent of a number. -/
def exponent? : List Char → Option (Int × List Char)
  | c :: rest =>
    if c = 'e' ∨ c = 'E' then do
      let (negative, rest) := sign? rest
      let (ds, rest) ← underscored isDigit rest
      let n : Int := digitsValue ds
      return (if negative then -n else n, rest)
    else none
  | [] => none

/-- A number with a fraction, an exponent or both. One that is too large is refused, unless it
is negative. -/
def float? (cs : List Char) : Option (Value × List Char) := do
  let (negative, cs) := sign? cs
  let (whole, cs) ← wholeDigits? cs
  let (fraction, exponent, rest) ← match cs with
    | '.' :: cs => do
      let (fraction, cs) ← underscored isDigit cs
      match exponent? cs with
      | some (e, cs) => some (fraction, e, cs)
      | none => some (fraction, 0, cs)
    | cs => do
      let (e, cs) ← exponent? cs
      some ([], e, cs)
  if negative || isFinite (digitsValue (whole ++ fraction)) (exponent - fraction.length) then
    return (.other, rest)
  else none

/-- Numbers that are written as words, with or without a sign. -/
def wordFloat? (cs : List Char) : Option (Value × List Char) :=
  match (sign? cs).2 with
  | 'i' :: 'n' :: 'f' :: rest => some (.other, rest)
  | 'n' :: 'a' :: 'n' :: rest => some (.other, rest)
  | _ => none

/-- The number that exactly `count` digits spell. -/
def fixedDigits? (count : Nat) (cs : List Char) : Option (Nat × List Char) :=
  let ds := cs.take count
  if ds.length = count ∧ ds.all isDigit then some (digitsValue ds, cs.drop count) else none

def char? (c : Char) : List Char → Option (List Char)
  | d :: rest => if c = d then some rest else none
  | [] => none

def daysInMonth (year month : Nat) : Nat :=
  if month = 2 then
    if year % 4 = 0 ∧ (year % 100 ≠ 0 ∨ year % 400 = 0) then 29 else 28
  else if month = 4 ∨ month = 6 ∨ month = 9 ∨ month = 11 then 30
  else 31

def date? (cs : List Char) : Option (List Char) := do
  let (year, cs) ← fixedDigits? 4 cs
  let (month, cs) ← fixedDigits? 2 (← char? '-' cs)
  let (day, cs) ← fixedDigits? 2 (← char? '-' cs)
  if 1 ≤ month ∧ month ≤ 12 ∧ 1 ≤ day ∧ day ≤ daysInMonth year month then some cs else none

/-- A time of day; a minute may have a second 60. -/
def time? (cs : List Char) : Option (List Char) := do
  let (hour, cs) ← fixedDigits? 2 cs
  let (minute, cs) ← fixedDigits? 2 (← char? ':' cs)
  let (second, cs) ← fixedDigits? 2 (← char? ':' cs)
  if hour < 24 ∧ minute < 60 ∧ second ≤ 60 then
    match cs with
    | '.' :: rest =>
      match rest.span isDigit with
      | ([], _) => none
      | (_, rest) => some rest
    | _ => some cs
  else none

/-- The offset of a time from UTC. -/
def offset? : List Char → Option (List Char)
  | c :: rest =>
    if c = 'Z' ∨ c = 'z' then some rest
    else if c = '+' ∨ c = '-' then do
      let (hour, rest) ← fixedDigits? 2 rest
      let (minute, rest) ← fixedDigits? 2 (← char? ':' rest)
      if hour < 24 ∧ minute < 60 then some rest else none
    else none
  | [] => none

/-- A date, a time, or both with or without an offset. -/
def dateTime? (cs : List Char) : Option (Value × List Char) :=
  match date? cs with
  | some rest =>
    match rest with
    | c :: after =>
      if c = 'T' ∨ c = 't' ∨ c = ' ' then
        match time? after with
        | some rest => some (.other, (offset? rest).getD rest)
        | none => some (.other, rest)
      else some (.other, rest)
    | [] => some (.other, [])
  | none => (time? cs).map (.other, ·)

/-- The values of an array, from after its opening bracket. -/
def arrayItems (value : List Char → Option (Value × List Char)) :
    Nat → List Char → Option (List Value × List Char)
  | 0, _ => none
  | fuel + 1, cs =>
    match skipFiller cs.length cs with
    | ']' :: rest => some ([], rest)
    | cs => do
      let (v, rest) ← value cs
      match skipFiller rest.length rest with
      | ',' :: rest => do
        let (vs, rest) ← arrayItems value fuel rest
        return (v :: vs, rest)
      | ']' :: rest => return ([v], rest)
      | _ => none

/-- The entries of an inline table, from where a key has to stand. -/
def inlineEntries (value : List Char → Option (Value × List Char)) :
    Nat → Entries → List Char → Option (Entries × List Char)
  | 0, _, _ => none
  | fuel + 1, entries, cs => do
    let ((path, key), rest) ← key? cs
    let (v, rest) ← value (skipBlanks (← char? '=' rest))
    let (_, entries) ← assign path key v .opened entries
    match skipBlanks rest with
    | ',' :: rest => inlineEntries value fuel entries rest
    | '\x7d' :: rest => return (entries, rest)
    | _ => none

/-- The value that a text starts with; `depth` more containers may stand in one another. -/
def value? : Nat → List Char → Option (Value × List Char)
  | depth, cs =>
    match cs with
    | 't' :: 'r' :: 'u' :: 'e' :: rest => some (.boolean true, rest)
    | 'f' :: 'a' :: 'l' :: 's' :: 'e' :: rest => some (.boolean false, rest)
    | '[' :: rest =>
      match depth with
      | 0 => none
      | depth + 1 => do
        let (vs, rest) ← arrayItems (value? depth) (rest.length + 1) rest
        return (.array vs, rest)
    | '\x7b' :: rest =>
      match depth with
      | 0 => none
      | depth + 1 =>
        match skipBlanks rest with
        | '\x7d' :: rest => some (.table .inline [], rest)
        | rest => do
          let (es, rest) ← inlineEntries (value? depth) (rest.length + 1) [] rest
          return (.table .inline es, rest)
    | c :: _ =>
      if c = '"' ∨ c = '\x27' then (string? cs).map fun (s, r) => (.string (String.ofList s), r)
      else dateTime? cs <|> float? cs <|> wordFloat? cs <|> integer? cs
    | [] => none

/-- A header, from after its first bracket. -/
def header? (cs : List Char) : Option (Statement × List Char) :=
  match cs with
  | '[' :: cs => do
    let ((path, key), rest) ← key? cs
    return (.openElement path key, ← char? ']' (← char? ']' rest))
  | cs => do
    let ((path, key), rest) ← key? cs
    return (.openTable path key, ← char? ']' rest)

/-- One statement up to the end of its line. -/
def statement? (cs : List Char) : Option (Statement × List Char) :=
  match cs with
  | '[' :: cs => do
    let (s, rest) ← header? cs
    return (s, ← lineEnd? rest)
  | cs => do
    let ((path, key), rest) ← key? cs
    let (v, rest) ← value? depthLimit (skipBlanks (← char? '=' rest))
    return (.assign path key v, ← lineEnd? rest)

/-- The statements of a text, with empty lines and comments between them. -/
def statements? : Nat → List Char → Option (List Statement)
  | 0, _ => none
  | fuel + 1, cs =>
    match skipBlanks cs with
    | [] => some []
    | cs =>
      match lineEnd? cs with
      | some rest => statements? fuel rest
      | none => do
        let (s, rest) ← statement? cs
        return s :: (← statements? fuel rest)

/-- The root table of a document. A byte order mark at its front is passed over. -/
def parse? (s : String) : Option Entries := do
  let cs := match s.toList with
    | '\ufeff' :: cs => cs
    | cs => cs
  Document.ofStatements (← statements? (cs.length + 1) cs)

end Lineage.Toml
