import Lineage.Message
import Lineage.Population

/-!
# Why a universe refuses a message or a time proof

Each refusal falls into one of a few classes, by which a caller may decide how to treat the
sender.
-/

namespace Lineage

inductive UniverseError where
  | duplicateMessage (message : Digest)
  | malformedMessage (message : Digest)
  | invalidSender (sender : Digest)
  | invalidSignature (message : Digest)
  | unknownReference (message reference : Digest)
  | referenceMismatch (message reference : Digest)
  | messageNotFound (message : Digest)
  | noMessagesFromSender (sender : Digest)
  | timeProofAlreadyExists (root : Digest)
  | birthRejected (message : Digest) (reason : BirthError)
  | faulty (e : Message.Error)
  | population (e : PopulationError)
  | graph (e : Dag.InsertError)
  | law (e : Law.ParameterError)
  deriving DecidableEq

namespace UniverseError

def message : UniverseError → String
  | .duplicateMessage m => s!"message already exists: {m.hex}"
  | .malformedMessage m => s!"message id {m.hex} does not match its content"
  | .invalidSender s => s!"sender {s.hex} is not a valid account"
  | .invalidSignature m => s!"signature of message {m.hex} does not verify"
  | .unknownReference m r => s!"message {m.hex} references unknown message {r.hex}"
  | .referenceMismatch m r => s!"message {m.hex} names the wrong sender for reference {r.hex}"
  | .messageNotFound m => s!"message not found: {m.hex}"
  | .noMessagesFromSender s => s!"no messages from sender {s.hex}"
  | .timeProofAlreadyExists r => s!"sender {r.hex} already roots a time proof"
  | .birthRejected m reason => s!"birth in message {m.hex} rejected: " ++ reason.message
  | .faulty e => "domain error: " ++ e.message
  | .population e => "account graph error: " ++ e.message
  | .graph e => "graph error: " ++ e.message
  | .law e => "invalid natural law configuration: " ++ e.message

/-- The classes of refusals. -/
inductive Class where
  /-- A repetition, an unknown reference or a faulty content. -/
  | structural
  /-- A sender that is no account, or a signature that is not the sender's. -/
  | authorization
  /-- A birth that is rejected, with its message kept. -/
  | birthValidation
  /-- A signature of the wrong form for its key. -/
  | scheme
  /-- Parameters of the birth law that are refused. -/
  | configuration
  deriving DecidableEq, Repr

/-- The class of a birth that is refused. -/
def ofBirth : BirthError → Class
  | .key _ => .scheme
  | _ => .birthValidation

def kind : UniverseError → Class
  | .invalidSender _ => .authorization
  | .invalidSignature _ => .authorization
  | .birthRejected _ reason => ofBirth reason
  | .population (.invalidBirth reason) => ofBirth reason
  | .faulty (.key _) => .scheme
  | .law _ => .configuration
  | .population (.law _) => .configuration
  | _ => .structural

end UniverseError

end Lineage
