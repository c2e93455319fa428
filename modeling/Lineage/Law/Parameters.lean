import Lineage.Steps
import Lineage.Wire.Decoder

/-!
# Parameters of the birth law

Every account lives a number of steps that is fixed at its birth, and never less than the minimum.
A quarter of the minimum is both the age from which an account may become a parent and the time
that has to pass between two of its children.
-/

namespace Lineage.Law

structure Parameters where
  minLifetime : Steps
  /-- The lifetime of the genesis accounts, unless it follows from the minimum. -/
  genesisLifetime : Option Steps
  deriving DecidableEq

/-- Why parameters are refused. -/
inductive ParameterError where
  | lifetimeTooShort (minLifetime : Steps)
  | genesisBelowMinimum (genesis minLifetime : Steps)
  deriving DecidableEq

def ParameterError.message : ParameterError → String
  | .lifetimeTooShort n => s!"min_lifetime must be at least 4, got {n.toNat}"
  | .genesisBelowMinimum genesis n =>
    s!"genesis_lifetime ({genesis.toNat}) is below min_lifetime ({n.toNat})"

namespace Parameters

/-- The age of consent, and the least time between two children. -/
def quarter (p : Parameters) : Steps := p.minLifetime / 4

/-- The lifetime of the genesis accounts: sixteen times the minimum unless it is set. Lifetimes
halve with each generation, so the fourth generation is down to the minimum. -/
def genesisLifecycle (p : Parameters) : Steps := p.genesisLifetime.getD (p.minLifetime.times 16)

/-- Refuses parameters under which the quarter vanishes or the genesis accounts live less than
their descendants. -/
def validate (p : Parameters) : Except ParameterError Unit :=
  if p.quarter = 0 then .error (.lifetimeTooShort p.minLifetime)
  else
    match p.genesisLifetime with
    | some g => if g < p.minLifetime then .error (.genesisBelowMinimum g p.minLifetime) else .ok ()
    | none => .ok ()

instance : Inhabited Parameters := ⟨1024, none⟩

def toJson (p : Parameters) : Json :=
  .object [("min_lifetime", .word64 p.minLifetime),
    ("genesis_lifetime", .optional .word64 p.genesisLifetime)]

def decode : Decoder Parameters := fun j => do
  let form := Form.field "min_lifetime" Decoder.word64 <|
    .field "genesis_lifetime" (Decoder.optional Decoder.word64) .empty
  match ← form.read j with
  | (some minLifetime, genesisLifetime, ()) => return ⟨minLifetime, genesisLifetime.join⟩
  | _ => .error .malformed

end Parameters

end Lineage.Law
