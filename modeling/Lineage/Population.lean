import Lineage.Dag
import Lineage.Birth.Certificate
import Lineage.Genesis
import Lineage.Law.Parameters

/-!
# The population

The admitted accounts form a graph in which every account but the two genesis accounts has two
parents. A birth is admitted when its parents are two accounts of different parity, neither an
ancestor of the other, that have both signed in turn. Every account lives half as long as the
longer lived of its parents, but not less than the minimum. Accounts are never removed, so a birth
that has been checked once may be admitted later.
-/

namespace Lineage

/-- An admitted account and the number of steps that it lives. -/
structure Resident where
  account : Account
  lifecycle : Steps
  deriving DecidableEq

structure Population where
  residents : Dag Resident
  genesis : Digest × Digest
  law : Law.Parameters

/-- Why an account is not admitted. -/
inductive PopulationError where
  | alreadyExists (account : Digest)
  | invalidBirth (e : BirthError)
  | graph (e : Dag.InsertError)
  | law (e : Law.ParameterError)
  deriving DecidableEq

def PopulationError.message : PopulationError → String
  | .alreadyExists a => s!"account already exists: {a.hex}"
  | .invalidBirth e => "invalid birth: " ++ e.message
  | .graph e => "account graph error: " ++ e.message
  | .law e => "invalid natural law configuration: " ++ e.message

namespace Population

/-- Admits an account whose parents are known to be in order. -/
def enter (residents : Dag Resident) (a : Account) (lifecycle : Steps) (parents : List Digest) :
    Except PopulationError (Dag Resident) :=
  match residents.insert ⟨a.id, ⟨a, lifecycle⟩, .ofList parents⟩ with
  | .ok residents => .ok residents
  | .error e => .error (.graph e)

/-- The population of two genesis accounts. -/
def ofGenesis (g : GenesisPair) (law : Law.Parameters) : Except PopulationError Population :=
  match law.validate with
  | .error e => .error (.law e)
  | .ok () => do
    let residents ← enter ∅ g.first law.genesisLifecycle []
    let residents ← enter residents g.second law.genesisLifecycle []
    return ⟨residents, g.ids, law⟩

def account? (p : Population) (id : Digest) : Option Account :=
  (p.residents.value? id).map (·.account)

def lifecycle? (p : Population) (id : Digest) : Option Steps :=
  (p.residents.value? id).map (·.lifecycle)

instance : Membership Digest Population := ⟨fun p id => id ∈ p.residents⟩

instance (id : Digest) (p : Population) : Decidable (id ∈ p) :=
  inferInstanceAs (Decidable (id ∈ p.residents))

/-- The ids of all accounts in the order of admission. -/
def ids (p : Population) : List Digest := p.residents.ids

def size (p : Population) : Nat := p.residents.size

/-- The children of an account in the order of admission. -/
def children (p : Population) (id : Digest) : List Digest := p.residents.children id

def isAncestor (p : Population) (ancestor descendant : Digest) : Bool :=
  p.residents.isAncestor ancestor descendant

/-- Checks the signatures under an identity by two parents. -/
def checkSignatures (i : Identity) (firstKey secondKey : PublicKey) (first second : Approval) :
    Except BirthError Unit := do
  let verify (k : PublicKey) (payload : Word256) (signature : Octets) : Except BirthError Bool :=
    match k.verify payload signature with
    | .ok verdict => .ok verdict
    | .error e => .error (.key e)
  if !(← verify firstKey i.firstPayload first.signature) then
    .error (.signatureInvalid first.parent)
  else if ← verify secondKey (i.secondPayload first.signature) second.signature then .ok ()
  else if ← verify secondKey i.firstPayload second.signature then
    .error (.signatureOrder second.parent)
  else .error (.signatureInvalid second.parent)

/-- Checks a birth against the population, as far as times do not matter. -/
def checkBirth (p : Population) (a : Account) : Except BirthError Unit :=
  match a.parents with
  | none => .error .missingParents
  | some (first, second) =>
    match p.account? first.parent, p.account? second.parent with
    | none, _ => .error (.unknownParent first.parent)
    | _, none => .error (.unknownParent second.parent)
    | some firstParent, some secondParent =>
      if first.parent = second.parent then .error (.sameParent first.parent)
      else if firstParent.parity = secondParent.parity then .error .parityMismatch
      else if p.residents.related first.parent second.parent then
        .error (.ancestorConflict first.parent second.parent)
      else
        checkSignatures a.identity firstParent.identity.key secondParent.identity.key first second

/-- An account whose birth has been checked, and its parents. -/
structure CheckedBirth where
  account : Account
  parents : Digest × Digest
  deriving DecidableEq

/-- Checks a birth and keeps the account for admission. -/
def verifyBirth (p : Population) (a : Account) : Except BirthError CheckedBirth := do
  p.checkBirth a
  match a.parentIds with
  | some parents => return ⟨a, parents⟩
  | none => .error .missingParents

/-- How long a child of two accounts lives. -/
def childLifecycle (p : Population) (parents : Digest × Digest) : Steps :=
  let longest := max ((p.lifecycle? parents.1).getD 0) ((p.lifecycle? parents.2).getD 0)
  max p.law.minLifetime (longest / 2)

/-- Admits an account whose birth has been checked. -/
def insert (p : Population) (b : CheckedBirth) : Except PopulationError (Population × Digest) :=
  let id := b.account.id
  if id ∈ p then .error (.alreadyExists id)
  else do
    let residents ← enter p.residents b.account (p.childLifecycle b.parents)
      [b.parents.1, b.parents.2]
    return ({ p with residents }, id)

/-- Checks a birth and admits the account. -/
def add (p : Population) (a : Account) : Except PopulationError (Population × Digest) :=
  let id := a.id
  if id ∈ p then .error (.alreadyExists id)
  else
    match p.verifyBirth a with
    | .error e => .error (.invalidBirth e)
    | .ok b => p.insert b

end Population

end Lineage
