import Lineage.Birth.Certificate

/-!
# Messages

Whatever happens is a message that its sender has signed. A message refers to earlier messages and
names their senders. Its id is the digest of the sender, the content and the references, in a
canonical form that leaves out the signature: messages with one id say the same thing.
-/

namespace Lineage

namespace Message

/-- A reference to an earlier message. -/
structure Reference where
  sender : Digest
  message : Digest
  deriving DecidableEq

inductive Kind where
  | text
  | birth
  deriving DecidableEq, Repr

/-- What a message says. -/
inductive Body where
  /-- Content that is not interpreted. -/
  | text (content : Octets)
  /-- A birth that two parents have signed. -/
  | birth (c : Certificate)
  deriving DecidableEq

end Message

structure Message where
  /-- The id that the message claims to have. -/
  id : Digest
  sender : Digest
  body : Message.Body
  references : List Message.Reference
  signature : Octets
  deriving DecidableEq

namespace Message

/-- Why a message is faulty in itself. -/
inductive Error where
  | serialization (reason : String)
  | key (e : KeyError)
  | invalidBirth (e : BirthError)
  deriving DecidableEq

def Error.message : Error → String
  | .serialization reason => "Serialization error: " ++ reason
  | .key e => "Signature scheme error: " ++ e.message
  | .invalidBirth e => "Invalid birth content: " ++ e.message

namespace Kind

def label : Kind → String
  | .text => "text"
  | .birth => "birth"

def name : Kind → String
  | .text => "Text"
  | .birth => "Birth"

def toJson (k : Kind) : Json := .string k.name

def names : List (String × Kind) := [(name .text, .text), (name .birth, .birth)]

def decode : Decoder Kind := Decoder.oneOf names

end Kind

namespace Reference

/-- The reference to a message. -/
def ofMessage (m : Message) : Reference := ⟨m.sender, m.id⟩

def toJson (r : Reference) : Json :=
  .object [("sender_id", r.sender.toJson), ("msg_id", r.message.toJson)]

def decode : Decoder Reference := fun j => do
  let form := Form.field "sender_id" Decoder.word256 <| .field "msg_id" Decoder.word256 .empty
  match ← form.read j with
  | (some sender, some message, ()) => return ⟨sender, message⟩
  | _ => .error .malformed

end Reference

namespace Body

def kind : Body → Kind
  | .text _ => .text
  | .birth _ => .birth

def content : Body → Json
  | .text b => b.toJson
  | .birth c => c.toJson

def toJson (b : Body) : Json :=
  .object [("content_type", b.kind.toJson), ("content", b.content)]

def decodeContent : Kind → Decoder Body
  | .text => fun j => do return .text (← Decoder.octets j)
  | .birth => fun j => do return .birth (← Certificate.decode j)

/-- Passes over the members after the content, none of which may repeat the content or its kind. -/
def skipRest (b : Body) : List (Json.Content × Json) → Except DecodeError Body
  | [] => .ok b
  | (.plain name, v) :: rest =>
    if name = "content_type" ∨ name = "content" then .error .malformed
    else do
      Decoder.skip v
      skipRest b rest
  | (.unpaired, _) :: _ => .error .malformed

/-- Looks for the content when its kind is known. -/
def findContent (kind : Kind) : List (Json.Content × Json) → Except DecodeError Body
  | (.plain name, v) :: rest =>
    if name = "content" then do skipRest (← decodeContent kind v) rest
    else if name = "content_type" then .error .malformed
    else do
      Decoder.skip v
      findContent kind rest
  | _ => .error .malformed

/-- Looks for the kind of a content that has been kept. -/
def findKind (content : Json) : List (Json.Content × Json) → Except DecodeError Body
  | (.plain name, v) :: rest =>
    if name = "content_type" then do skipRest (← decodeContent (← Kind.decode v) content) rest
    else if name = "content" then .error .malformed
    else do
      Decoder.skip v
      findKind content rest
  | _ => .error .malformed

/-- Looks for the kind or the content, whichever comes first. A content that comes first is kept
until its kind is known; it stands inside `depth` containers. -/
def ofMembers (depth : Nat) : List (Json.Content × Json) → Except DecodeError Body
  | (.plain name, v) :: rest =>
    if name = "content_type" then do findContent (← Kind.decode v) rest
    else if name = "content" then
      if v.isKeepable (Json.depthLimit - depth) then findKind v rest else .error .malformed
    else do
      Decoder.skip v
      ofMembers depth rest
  | _ => .error .malformed

/-- Decodes a body that stands inside `depth` containers. In an array the kind comes first, and
only as a string. -/
def decode (depth : Nat) : Decoder Body
  | .object members => ofMembers (depth + 1) members
  | .array (kind :: content :: rest) => do
    let b ← decodeContent (← Decoder.oneOfStrings Kind.names kind) content
    if rest.isEmpty then .ok b else .error .malformed
  | _ => .error .malformed

end Body

/-- What is signed and what the id is made from, with its members in alphabetical order. -/
def signedJson (m : Message) : Json :=
  .object [("references", .array (m.references.map Reference.toJson)),
    ("sender_id", m.sender.toJson), ("value", m.body.toJson)]

def canonical (m : Message) : Octets := m.signedJson.octets

/-- The tag of message ids. -/
def idTag : Octets := Octets.ofText "kinship/message/v1".toList

/-- The id that a message has by its content. -/
def contentId (m : Message) : Digest := .ofTagged idTag m.canonical

/-- The digest that the sender signs. -/
def signedDigest (m : Message) : Word256 := payloadDigest m.canonical

/-- A message with the id of its content, signed by a key. -/
def create (sender : Digest) (body : Body) (references : List Reference) (key : PrivateKey) :
    Except Error Message :=
  let m : Message := ⟨default, sender, body, references, []⟩
  match key.sign m.signedDigest with
  | .ok s => .ok { m with id := m.contentId, signature := s.octets }
  | .error e => .error (.key e)

/-- Whether the signature is that of a public key. -/
def verifySignature (m : Message) (key : PublicKey) : Except Error Bool :=
  match key.verify m.signedDigest m.signature with
  | .ok verdict => .ok verdict
  | .error e => .error (.key e)

/-- The account that a message proposes, if it carries a birth. -/
def proposedAccount (m : Message) : Except Error (Option Account) :=
  match m.body with
  | .text _ => .ok none
  | .birth c =>
    match c.toAccount m.id with
    | .ok a => .ok (some a)
    | .error e => .error (.invalidBirth e)

/-- The references to messages of the same sender. -/
def ownReferences (m : Message) : List Reference := m.references.filter (·.sender = m.sender)

def toJson (m : Message) : Json :=
  .object [("id", m.id.toJson), ("sender_id", m.sender.toJson), ("value", m.body.toJson),
    ("references", .array (m.references.map Reference.toJson)),
    ("signature", m.signature.toJson)]

def decode : Decoder Message := fun j => do
  let form := Form.field "id" Decoder.word256 <| .field "sender_id" Decoder.word256 <|
    .field "value" (Body.decode 1) <| .field "references" (Decoder.list Reference.decode) <|
    .field "signature" Decoder.octets .empty
  match ← form.read j with
  | (some id, some sender, some body, some references, some signature, ()) =>
    return ⟨id, sender, body, references, signature⟩
  | _ => .error .malformed

end Message

end Lineage
