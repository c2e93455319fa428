import Lineage.Account

/-!
# Genesis accounts

A universe starts from two accounts of different parity that have no parents. They are the only
accounts that are taken without a check of their birth.
-/

namespace Lineage

inductive GenesisError where
  | sameParity
  | hasParents (account : Digest)
  | keyGeneration (attempts : Nat)
  | key (e : KeyError)
  deriving DecidableEq

def GenesisError.message : GenesisError → String
  | .sameParity => "genesis accounts must have opposite parity"
  | .hasParents a => s!"genesis account {a.hex} has parents"
  | .keyGeneration attempts => s!"no key of the requested parity after {attempts} attempts"
  | .key e => "signature scheme error: " ++ e.message

/-- Whether an account names parents or a birth message. -/
def Account.hasBirth (a : Account) : Bool := !a.isGenesis || a.birthMessage.isSome

theorem Account.unborn_iff {a : Account} :
    a.hasBirth = false ↔ a.parentIds = none ∧ a.birthMessage = none := by
  simp [hasBirth, isGenesis, parentIds]

/-- Two accounts of different parity that were not born. -/
structure GenesisPair where
  first : Account
  second : Account
  unborn_first : first.hasBirth = false
  unborn_second : second.hasBirth = false
  parity_ne : first.parity ≠ second.parity
  deriving DecidableEq

namespace GenesisPair

def ofAccounts (first second : Account) : Except GenesisError GenesisPair :=
  if h : first.hasBirth then .error (.hasParents first.id)
  else if h' : second.hasBirth then .error (.hasParents second.id)
  else if parity : first.parity = second.parity then .error .sameParity
  else .ok ⟨first, second, by simpa using h, by simpa using h', parity⟩

def accounts (g : GenesisPair) : List Account := [g.first, g.second]

def ids (g : GenesisPair) : Digest × Digest := (g.first.id, g.second.id)

/-- The account of the given parity. -/
def ofParity (g : GenesisPair) (p : Parity) : Account :=
  if g.first.parity = p then g.first else g.second

end GenesisPair

/-- How many keys are drawn in search of one with the parity that is asked for. -/
def Account.drawLimit : Nat := 128

/-- The first key of the given parity, of at most `attempts`. -/
def PrivateKey.search {σ : Type} [Source σ] (scheme : Scheme) (parity : Parity) :
    Nat → σ → Except GenesisError PrivateKey
  | 0, _ => .error (.keyGeneration Account.drawLimit)
  | attempts + 1, s =>
    match PrivateKey.generate scheme s with
    | .error e => .error (.key e)
    | .ok (k, s) =>
      if Parity.ofKey k.publicKey = parity then .ok k else search scheme parity attempts s

/-- A new account without parents, of the given parity, and its key. -/
def Account.root {σ : Type} [Source σ] (name : String) (scheme : Scheme) (parity : Parity) (s : σ) :
    Except GenesisError (Account × PrivateKey) := do
  let k ← PrivateKey.search scheme parity Account.drawLimit s
  return (.genesis ⟨name, "", k.publicKey⟩, k)

end Lineage
