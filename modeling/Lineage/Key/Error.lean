/-!
# Key schemes and what can go wrong with keys

An account signs with one key pair or with a set of key pairs that must all sign.
-/

namespace Lineage

/-- How many key pairs sign together. -/
inductive Scheme where
  | single
  /-- All of `n` key pairs sign. -/
  | threshold (n : Nat)
  deriving DecidableEq, Repr

namespace Scheme

/-- The number of key pairs of a scheme. -/
def keyCount : Scheme → Nat
  | .single => 1
  | .threshold n => n

def text : Scheme → String
  | .single => "Single"
  | .threshold n => s!"Threshold({n})"

end Scheme

/-- Why key material or a signature is refused. -/
inductive KeyError where
  | unsupportedScheme (name : String)
  | sourceMismatch (expected found : String)
  | schemeMismatch (expected found : Scheme)
  | malformedSignature (length width : Nat)
  | keyCountMismatch (keys signatures : Nat)
  | paramsMissing (what : String)
  | invalidKey (reason : String)
  | signing (reason : String)
  deriving DecidableEq, Repr

namespace KeyError

def message : KeyError → String
  | .unsupportedScheme name => "unsupported signature scheme: " ++ name
  | .sourceMismatch expected found =>
    "key source mismatch: expected " ++ expected ++ ", found " ++ found
  | .schemeMismatch expected found =>
    "scheme mismatch: key is " ++ expected.text ++ ", signature is " ++ found.text
  | .malformedSignature length width =>
    s!"malformed signature: length {length} is not a non-zero multiple of {width}"
  | .keyCountMismatch keys signatures =>
    s!"threshold signature carries {signatures} signatures for {keys} keys"
  | .paramsMissing what => "missing scheme parameter: " ++ what
  | .invalidKey reason => "invalid key: " ++ reason
  | .signing reason => "signing failed: " ++ reason

/-- A scalar or a point that is out of range. -/
def outOfRange : KeyError := .invalidKey "signature error"

end KeyError

end Lineage
