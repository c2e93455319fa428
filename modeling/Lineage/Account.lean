import Lineage.Digest
import Lineage.Key.Private

/-!
# Accounts

An account has a public identity, which both its parents have signed, and the message that
carried its birth. It is named by the digest of all of this. The two genesis accounts have
neither parents nor a birth message.
-/

namespace Lineage

/-- One of two classes of accounts. The parents of an account are of different classes. -/
inductive Parity where
  | even
  | odd
  deriving DecidableEq, Repr

namespace Parity

/-- The class that a public key belongs to. -/
def ofKey (k : PublicKey) : Parity := if k.lowBit = 1 then .odd else .even

def opposite : Parity → Parity
  | .even => .odd
  | .odd => .even

def text : Parity → String
  | .even => "even"
  | .odd => "odd"

def name : Parity → String
  | .even => "Even"
  | .odd => "Odd"

def toJson (p : Parity) : Json := .string p.name

def decode : Decoder Parity := Decoder.oneOf [(name .even, .even), (name .odd, .odd)]

end Parity

/-- What both parents sign. -/
structure Identity where
  name : String
  extra : String
  key : PublicKey
  deriving DecidableEq

namespace Identity

def members (i : Identity) : List (Json.Content × Json) :=
  [("name", .string i.name), ("birth_extra", .string i.extra), ("auth", i.key.toJson)]

def toJson (i : Identity) : Json := .object i.members

def form : Form (Option String × Option String × Option PublicKey × Unit) :=
  .field "name" Decoder.string <| .field "birth_extra" Decoder.string <|
    .field "auth" PublicKey.decode .empty

def ofFields : Option String × Option String × Option PublicKey × Unit →
    Except DecodeError Identity
  | (some name, some extra, some key, ()) => .ok ⟨name, extra, key⟩
  | _ => .error .malformed

def decode : Decoder Identity := fun j => do ofFields (← form.read j)

def parity (i : Identity) : Parity := .ofKey i.key

/-- The octets that the first parent signs. -/
def canonical (i : Identity) : Octets := i.toJson.octets

/-- The digest that the first parent signs. -/
def firstPayload (i : Identity) : Word256 := payloadDigest i.canonical

/-- The digest that the second parent signs: the identity followed by the first signature. -/
def secondPayload (i : Identity) (firstSignature : Octets) : Word256 :=
  payloadDigest (i.canonical ++ firstSignature)

end Identity

/-- The signature of one parent under a birth. -/
structure Approval where
  parent : Digest
  signature : Octets
  deriving DecidableEq

namespace Approval

def toJson (a : Approval) : Json :=
  .object [("parent_id", a.parent.toJson), ("signature", a.signature.toJson)]

def decode : Decoder Approval := fun j => do
  let form := Form.field "parent_id" Decoder.word256 <| .field "signature" Decoder.octets .empty
  match ← form.read j with
  | (some parent, some signature, ()) => return ⟨parent, signature⟩
  | _ => .error .malformed

end Approval

structure Account where
  identity : Identity
  /-- The approvals of the parents in signing order. -/
  parents : Option (Approval × Approval)
  /-- The message that carried the birth. -/
  birthMessage : Option Digest
  deriving DecidableEq

namespace Account

/-- An account without parents. -/
def genesis (i : Identity) : Account := ⟨i, none, none⟩

/-- The members that an account has beyond its identity. -/
def birthMembers (a : Account) : List (Json.Content × Json) :=
  [("parents", .optional (fun p => .array [p.1.toJson, p.2.toJson]) a.parents),
    ("birth_msg", .optional Word256.toJson a.birthMessage)]

def toJson (a : Account) : Json := .object (a.identity.members ++ a.birthMembers)

/-- The tag of account names. -/
def idTag : Octets := Octets.ofText "kinship/user/v1".toList

/-- The name of an account. The birth message is part of what is named, so that one identity born
twice gives two accounts. -/
def id (a : Account) : Digest := .ofTagged idTag a.toJson.octets

def parity (a : Account) : Parity := a.identity.parity

def isGenesis (a : Account) : Bool := a.parents.isNone

def parentIds (a : Account) : Option (Digest × Digest) :=
  a.parents.map fun (first, second) => (first.parent, second.parent)

def parentList (a : Account) : List Digest :=
  (a.parentIds.map fun (first, second) => [first, second]).getD []

/-- What has been decoded of an account: its parents and birth message at once, and its other
members kept for later. -/
structure Draft where
  parents : Option (Option (Approval × Approval))
  birthMessage : Option (Option Digest)
  kept : List (Json.Content × Json)

/-- Takes one member of an object into the draft. -/
def Draft.put (d : Draft) : Json.Content × Json → Except DecodeError Draft
  | (.plain "parents", v) =>
    match d.parents with
    | some _ => .error .malformed
    | none => do return { d with parents := some (← Decoder.optional (Decoder.pair Approval.decode) v) }
  | (.plain "birth_msg", v) =>
    match d.birthMessage with
    | some _ => .error .malformed
    | none => do return { d with birthMessage := some (← Decoder.optional Decoder.word256 v) }
  | (.plain name, v) =>
    if v.isKeepable (Json.depthLimit - 1) then .ok { d with kept := d.kept ++ [(.plain name, v)] }
    else .error .malformed
  | (.unpaired, _) => .error .malformed

/-- Accounts are given as objects only. The members of the identity are decoded after all others,
because they stand in the same object. -/
def decode : Decoder Account
  | .object members => do
    let d ← members.foldlM Draft.put ⟨none, none, []⟩
    let identity ← Identity.ofFields (← Identity.form.ofMembers d.kept)
    return ⟨identity, d.parents.join, d.birthMessage.join⟩
  | _ => .error .malformed

end Account

end Lineage
