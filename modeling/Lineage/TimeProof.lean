import Lineage.Dag
import Lineage.Message
import Lineage.Law.Windows

/-!
# Time proofs

A time proof counts the messages of one sender, its root, along their references to each other:
a message has the number after the greatest number that it refers to. Every other message gets the
greatest number among the root's messages before it as its causal time. That is the clock of the
birth law. Accounts that are members of a time proof have a time of birth in it. The accounts that
are valid when a time proof is set up are noted in a snapshot, which never changes.
-/

namespace Lineage

/-- The accounts that are there when a time proof is set up. -/
structure Snapshot where
  members : DigestSet
  deriving DecidableEq

namespace Snapshot

def ofList (accounts : List Digest) : Snapshot := ⟨.ofList accounts⟩

instance : Inhabited Snapshot := ⟨⟨∅⟩⟩

instance : Membership Digest Snapshot := ⟨fun s a => a ∈ s.members⟩

@[simp] theorem mem_ofList {a : Digest} {accounts : List Digest} :
    a ∈ ofList accounts ↔ a ∈ accounts := DigestSet.mem_ofList

instance (a : Digest) (s : Snapshot) : Decidable (a ∈ s) :=
  inferInstanceAs (Decidable (a ∈ s.members))

def size (s : Snapshot) : Nat := s.members.size

def toJson (s : Snapshot) : Json := .object [("members", s.members.toJson)]

def decode : Decoder Snapshot := fun j => do
  match ← (Form.field "members" DigestSet.decode .empty).read j with
  | (some members, ()) => return ⟨members⟩
  | _ => .error .malformed

end Snapshot

/-- The membership of one account. -/
structure Membership where
  bornAt : Steps
  deriving DecidableEq

namespace Membership

/-- The only status that members have. -/
def status : String := "Normal"

def toJson (m : Membership) : Json :=
  .object [("status", .string status), ("born_at", .word64 m.bornAt)]

def decode : Decoder Membership := fun j => do
  let form := Form.field "status" (Decoder.oneOf [(status, ())]) <|
    .field "born_at" Decoder.word64 .empty
  match ← form.read j with
  | (some (), some bornAt, ()) => return ⟨bornAt⟩
  | _ => .error .malformed

end Membership

structure TimeProof where
  /-- The sender whose messages are counted. -/
  root : Digest
  /-- The message for which the time proof was set up. -/
  anchor : Digest
  maxSequence : Steps
  sequences : Dag Steps
  memberships : Dag Membership

namespace TimeProof

/-- A time proof without messages and members. -/
def start (root anchor : Digest) : TimeProof := ⟨root, anchor, 0, ∅, ∅⟩

/-- The number of a message that has been counted. -/
def sequence? (t : TimeProof) (message : Digest) : Option Steps := t.sequences.value? message

def size (t : TimeProof) : Nat := t.sequences.size

/-- The greatest number among those of some messages, zero when none of them is counted. -/
def latest (t : TimeProof) (messages : List Digest) : Steps :=
  (messages.filterMap t.sequence?).foldl max 0

/-- Counts a message. Its parents are the counted messages of the same sender that it refers to. -/
def extend (t : TimeProof) (m : Message) : Except Dag.InsertError (TimeProof × Steps) := do
  let parents := (m.ownReferences.map (·.message)).filter fun id => id ∈ t.sequences
  let sequence := 1 + t.latest parents
  let sequences ← t.sequences.insert ⟨m.id, sequence, .ofList parents⟩
  return ({ t with sequences, maxSequence := max t.maxSequence sequence }, sequence)

/-- The time of a message: its own number, or else the greatest number among the messages that it
refers to directly or indirectly. -/
def causalTime (t : TimeProof) (messages : Dag Message) (message : Digest) : Steps :=
  match t.sequence? message with
  | some sequence => sequence
  | none => t.latest (messages.ancestors message).toList

/-- The time at which an account was born, zero if it was not. -/
def birthTime (t : TimeProof) (messages : Dag Message) (a : Account) : Steps :=
  (a.birthMessage.map (t.causalTime messages)).getD 0

/-- Makes an account a member, below those of its parents that are members. -/
def addMember (t : TimeProof) (account : Digest) (parents : List Digest) (bornAt : Steps) :
    Except Dag.InsertError TimeProof := do
  let linked := parents.filter fun id => id ∈ t.memberships
  let memberships ← t.memberships.insert ⟨account, ⟨bornAt⟩, .ofList linked⟩
  return { t with memberships }

def member? (t : TimeProof) (account : Digest) : Option Membership :=
  t.memberships.value? account

/-- The members in the order of their admission. -/
def members (t : TimeProof) : List Digest := t.memberships.ids

/-- The clock for judging a birth at time `now`. -/
def clockAt (t : TimeProof) (now : Steps) : Law.Clock :=
  ⟨now, fun account => (t.member? account).map (·.bornAt)⟩

end TimeProof

end Lineage
