import Lineage.Digest.Map
import Lineage.TimeProof
import Lineage.Universe.Error

/-!
# Universes

A universe is one observer's view: the messages it has accepted, the accounts born in them, and
the time proofs set up on their senders. A message is checked as a whole before anything changes.
A birth is judged after its message is stored, in every time proof at the time of the message
there; the account is admitted when one of them lets it pass, and becomes a member of those that
do. The message of a rejected birth stays.

An operation gives the universe after it together with its result, because a refusal may come
after a change.
-/

namespace Lineage

structure Universe where
  messages : Dag Message
  population : Population
  proofs : DigestMap TimeProof
  /-- The snapshots, under the roots of their time proofs; the parents of one are all before it. -/
  snapshots : Dag Snapshot

namespace Universe

/-- Checks one reference of a message: its target is stored, and is from the sender it names. -/
def checkReference (u : Universe) (m : Message) (r : Message.Reference) :
    Except UniverseError Unit :=
  match u.messages.value? r.message with
  | none => .error (.unknownReference m.id r.message)
  | some target =>
    if target.sender = r.sender then .ok () else .error (.referenceMismatch m.id r.message)

def checkReferences (u : Universe) (m : Message) : List Message.Reference → Except UniverseError Unit
  | [] => .ok ()
  | r :: rest => do
    u.checkReference m r
    checkReferences u m rest

/-- Checks everything about a message but the birth in it. -/
def validate (u : Universe) (m : Message) : Except UniverseError Unit :=
  if m.id ∈ u.messages then .error (.duplicateMessage m.id)
  else if m.contentId ≠ m.id then .error (.malformedMessage m.id)
  else
    match u.population.account? m.sender with
    | none => .error (.invalidSender m.sender)
    | some sender =>
      match m.verifySignature sender.identity.key with
      | .error e => .error (.faulty e)
      | .ok false => .error (.invalidSignature m.id)
      | .ok true => u.checkReferences m m.references

/-- Stores a message below the messages that it refers to. -/
def store (u : Universe) (m : Message) : Except UniverseError Universe :=
  match u.messages.insert ⟨m.id, m, .ofList (m.references.map (·.message))⟩ with
  | .ok messages => .ok { u with messages }
  | .error e => .error (.graph e)

/-- Counts a message in the time proof of its sender, if there is one. -/
def count (u : Universe) (m : Message) : Except UniverseError Universe :=
  match u.proofs.get? m.sender with
  | none => .ok u
  | some t =>
    match t.extend m with
    | .ok (t, _) => .ok { u with proofs := u.proofs.insert m.sender t }
    | .error e => .error (.graph e)

/-- The verdict on two parents in each time proof, at the time of a stored message. -/
def verdicts (u : Universe) (parents : Digest × Digest) (message : Digest) :
    List (Digest × Steps × Except BirthError Unit) :=
  u.proofs.entries.map fun (root, t) =>
    let now := t.causalTime u.messages message
    (root, now, Law.checkParents u.population.law u.population parents (t.clockAt now))

/-- The time proofs that let a birth pass, and its time in each. -/
def passed (verdicts : List (Digest × Steps × Except BirthError Unit)) : List (Digest × Steps) :=
  verdicts.filterMap fun
    | (root, now, .ok ()) => some (root, now)
    | (_, _, .error _) => none

/-- The reason of the first time proof that does not let a birth pass. -/
def firstFailure (verdicts : List (Digest × Steps × Except BirthError Unit)) : BirthError :=
  let reasons := verdicts.filterMap fun
    | (_, _, .ok ()) => none
    | (_, _, .error e) => some e
  reasons.headD .missingParents

/-- Makes an account a member of time proofs, with its time of birth in each. -/
def enroll (u : Universe) (account : Digest) (parents : List Digest) :
    List (Digest × Steps) → Universe × Except UniverseError Unit
  | [] => (u, .ok ())
  | (root, bornAt) :: rest =>
    match u.proofs.get? root with
    | none => enroll u account parents rest
    | some t =>
      match t.addMember account parents bornAt with
      | .ok t => enroll { u with proofs := u.proofs.insert root t } account parents rest
      | .error e => (u, .error (.graph e))

/-- Judges the birth of an account in a stored message, and admits the account if it may be. -/
def judge (u : Universe) (a : Account) (message : Digest) : Universe × Except UniverseError Unit :=
  match u.population.verifyBirth a with
  | .error reason => (u, .error (.birthRejected message reason))
  | .ok birth =>
    let verdicts := u.verdicts birth.parents message
    match passed verdicts with
    | [] => (u, .error (.birthRejected message (firstFailure verdicts)))
    | roots =>
      match u.population.insert birth with
      | .error e => (u, .error (.population e))
      | .ok (population, account) =>
        enroll { u with population } account [birth.parents.1, birth.parents.2] roots

/-- Takes in a message. -/
def add (u : Universe) (m : Message) : Universe × Except UniverseError Unit :=
  match u.validate m, m.proposedAccount with
  | .error e, _ => (u, .error e)
  | _, .error e => (u, .error (.faulty e))
  | .ok (), .ok birth =>
    match u.store m with
    | .error e => (u, .error e)
    | .ok u =>
      match u.count m with
      | .error e => (u, .error e)
      | .ok u =>
        match birth with
        | none => (u, .ok ())
        | some a => u.judge a m.id

/-- Counts all stored messages of a time proof's root, in the order in which they came. -/
def replay (t : TimeProof) : List Message → Except UniverseError TimeProof
  | [] => .ok t
  | m :: rest =>
    if m.sender = t.root then
      match t.extend m with
      | .ok (t, _) => replay t rest
      | .error e => .error (.graph e)
    else replay t rest

/-- Makes all accounts of a population members of a time proof, in the order of their admission. -/
def enrollAll (messages : Dag Message) (t : TimeProof) :
    List (Vertex Resident) → Except UniverseError TimeProof
  | [] => .ok t
  | v :: rest =>
    let a := v.value.account
    match t.addMember v.id a.parentList (t.birthTime messages a) with
    | .ok t => enrollAll messages t rest
    | .error e => .error (.graph e)

/-- The stored messages in the order in which they came. -/
def messageList (u : Universe) : List Message := u.messages.vertices.map (·.value)

/-- The time proof on the sender of a stored message, with all that happened up to now. -/
def buildTimeProof (u : Universe) (root anchor : Digest) : Except UniverseError TimeProof := do
  let t ← replay (.start root anchor) u.messageList
  enrollAll u.messages t u.population.residents.vertices

/-- Sets up a time proof on the sender of a stored message. -/
def addTimeProof (u : Universe) (anchor : Digest) : Universe × Except UniverseError Unit :=
  match u.messages.value? anchor with
  | none => (u, .error (.messageNotFound anchor))
  | some m =>
    let root := m.sender
    if root ∈ u.proofs then (u, .error (.timeProofAlreadyExists root))
    else if root ∉ u.population then (u, .error (.invalidSender root))
    else
      match u.buildTimeProof root anchor with
      | .error e => (u, .error e)
      | .ok t =>
        match u.snapshots.insert ⟨root, .ofList u.population.ids, .ofList u.snapshots.ids⟩ with
        | .error e => (u, .error (.graph e))
        | .ok snapshots => ({ u with snapshots, proofs := u.proofs.insert root t }, .ok ())

/-- Sets up a time proof on an account, for the first of its messages. -/
def addTimeProofFor (u : Universe) (sender : Digest) : Universe × Except UniverseError Unit :=
  if sender ∉ u.population then (u, .error (.invalidSender sender))
  else
    match u.messageList.find? (·.sender = sender) with
    | none => (u, .error (.noMessagesFromSender sender))
    | some m => u.addTimeProof m.id

/-- The universe of two genesis accounts and a first message by one of them, which is text and has
a time proof set up on its sender. -/
def create (law : Law.Parameters) (genesis : GenesisPair) (first : Message) :
    Except UniverseError Universe := do
  match law.validate with
  | .error e => .error (.law e)
  | .ok () =>
    match Population.ofGenesis genesis law with
    | .error e => .error (.population e)
    | .ok population =>
      let u : Universe := ⟨∅, population, ∅, ∅⟩
      if first.sender ≠ population.genesis.1 ∧ first.sender ≠ population.genesis.2 then
        .error (.invalidSender first.sender)
      else if first.body.kind ≠ .text then .error (.malformedMessage first.id)
      else
        match u.add first with
        | (_, .error e) => .error e
        | (u, .ok ()) =>
          match u.addTimeProof first.id with
          | (_, .error e) => .error e
          | (u, .ok ()) => .ok u

end Universe

end Lineage
