import Lineage.Account
import Lineage.Steps

/-!
# Birth certificates

A candidate publishes its identity, and the two parents sign it in turn. The first signs the
identity, the second signs it together with the first signature, so that the order of signing
cannot be changed afterwards.
-/

namespace Lineage

/-- Why a birth is refused. -/
inductive BirthError where
  | missingParents
  | parentCount (count : Nat)
  | parityMismatch
  | sameParent (parent : Digest)
  | unknownParent (parent : Digest)
  | ancestorConflict (first second : Digest)
  | signatureInvalid (parent : Digest)
  /-- The second parent has signed the identity without the first signature. -/
  | signatureOrder (parent : Digest)
  | parentNotInTimeProof (parent : Digest)
  | parentTooYoung (parent : Digest) (age required : Steps)
  | parentExpired (parent : Digest) (born lifecycle now : Steps)
  | cosignRateLimited (parent : Digest) (last now : Steps)
  | key (e : KeyError)
  deriving DecidableEq

def BirthError.message : BirthError → String
  | .missingParents => "account has no parents"
  | .parentCount count => s!"birth carries {count} parent signatures, expected 2"
  | .parityMismatch => "parents have the same parity"
  | .sameParent p => s!"both parent slots name account {p.hex}"
  | .unknownParent p => s!"parent {p.hex} is not a valid account"
  | .ancestorConflict p q => s!"parents {p.hex} and {q.hex} are ancestor and descendant"
  | .signatureInvalid p => s!"signature of parent {p.hex} does not verify"
  | .signatureOrder p =>
    s!"signature of parent {p.hex} does not cover the first parent" ++ "\x27s signature"
  | .parentNotInTimeProof p => s!"parent {p.hex} is not a member of the time proof"
  | .parentTooYoung p age required =>
    s!"parent {p.hex} is {age.toNat} steps old, needs {required.toNat}"
  | .parentExpired p born lifecycle now =>
    s!"parent {p.hex} expired: born at {born.toNat}, lifecycle {lifecycle.toNat}, now {now.toNat}"
  | .cosignRateLimited p last now =>
    s!"parent {p.hex} co-signed a birth at {last.toNat}, too close to {now.toNat}"
  | .key e => "signature scheme error: " ++ e.message

structure Certificate where
  identity : Identity
  /-- The approvals in signing order. -/
  approvals : List Approval
  deriving DecidableEq

namespace Certificate

/-- A certificate that nobody has signed. -/
def unsigned (i : Identity) : Certificate := ⟨i, []⟩

/-- Adds the signature of the next parent. -/
def sign (c : Certificate) (parent : Digest) (key : PrivateKey) : Except BirthError Certificate :=
  let approve (payload : Word256) : Except BirthError Certificate :=
    match key.sign payload with
    | .ok s => .ok { c with approvals := c.approvals ++ [⟨parent, s.octets⟩] }
    | .error e => .error (.key e)
  match c.approvals with
  | [] => approve c.identity.firstPayload
  | [first] => approve (c.identity.secondPayload first.signature)
  | signed => .error (.parentCount (signed.length + 1))

def isComplete (c : Certificate) : Bool := c.approvals.length == 2

/-- The account that a certificate gives when the message `birthMessage` carries it. -/
def toAccount (c : Certificate) (birthMessage : Digest) : Except BirthError Account :=
  match c.approvals with
  | [first, second] => .ok ⟨c.identity, some (first, second), some birthMessage⟩
  | approvals => .error (.parentCount approvals.length)

def toJson (c : Certificate) : Json :=
  .object [("identity", c.identity.toJson), ("parents", .array (c.approvals.map Approval.toJson))]

def decode : Decoder Certificate := fun j => do
  let form := Form.field "identity" Identity.decode <|
    .field "parents" (Decoder.list Approval.decode) .empty
  match ← form.read j with
  | (some identity, some approvals, ()) => return ⟨identity, approvals⟩
  | _ => .error .malformed

end Certificate

end Lineage
