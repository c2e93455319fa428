import Lineage.Universe

/-!
# Questions to a universe
-/

namespace Lineage.Universe

/-- Whether an account has been admitted. -/
def isValid (u : Universe) (account : Digest) : Bool := decide (account ∈ u.population)

def message? (u : Universe) (id : Digest) : Option Message := u.messages.value? id

def account? (u : Universe) (id : Digest) : Option Account := u.population.account? id

/-- The greatest number in the time proof of a sender, zero when there is none. -/
def maxSequence (u : Universe) (sender : Digest) : Steps :=
  ((u.proofs.get? sender).map (·.maxSequence)).getD 0

def sequence? (u : Universe) (root message : Digest) : Option Steps := do
  (← u.proofs.get? root).sequence? message

/-- The time of a stored message in a time proof. -/
def causalTime? (u : Universe) (root message : Digest) : Option Steps := do
  let t ← u.proofs.get? root
  if message ∈ u.messages then return t.causalTime u.messages message else none

/-- Whether an account is a member of a time proof and its lifetime is not over at the greatest
number there. -/
def isAlive (u : Universe) (root account : Digest) : Bool :=
  match u.proofs.get? root with
  | none => false
  | some t =>
    match t.member? account, u.population.lifecycle? account with
    | some m, some lifecycle => t.maxSequence < Steps.plus m.bornAt lifecycle
    | _, _ => false

/-- The roots of all time proofs, in ascending order. -/
def roots (u : Universe) : List Digest := u.proofs.keys

def snapshot? (u : Universe) (root : Digest) : Option Snapshot := u.snapshots.value? root

/-- The roots of the time proofs that were there before that of `root`. -/
def snapshotParents (u : Universe) (root : Digest) : List Digest :=
  ((u.snapshots.get? root).map fun v => v.parents.toList).getD []

def messageCount (u : Universe) : Nat := u.messages.size

variable {u : Universe} {root : Digest} {t : TimeProof}

theorem maxSequence_eq (h : u.proofs.get? root = some t) : u.maxSequence root = t.maxSequence := by
  rw [maxSequence, h, Option.map_some, Option.getD_some]

theorem sequence?_eq (h : u.proofs.get? root = some t) (message : Digest) :
    u.sequence? root message = t.sequence? message := by
  rw [sequence?, h]
  rfl

theorem causalTime?_eq (h : u.proofs.get? root = some t) {message : Digest}
    (stored : message ∈ u.messages) :
    u.causalTime? root message = some (t.causalTime u.messages message) := by
  rw [causalTime?, h]
  exact if_pos stored

end Lineage.Universe
