import Lineage.Population

/-!
# The windows of the birth law

Whether two accounts may become parents at some time depends on the clock that tells when accounts
were born. Each of them has to be born and still alive, at least a quarter of the minimum lifetime
old, and without a child that was born less than a quarter before or after. What the clock does
not know has not happened.
-/

namespace Lineage.Law

/-- The time of a birth that is judged, and the birth times that are known. -/
structure Clock where
  now : Steps
  bornAt : Digest → Option Steps

/-- The birth time of the first child that is too close to `now`. -/
def closeChild? (clock : Clock) (quarter : Steps) : List Digest → Option Steps
  | [] => none
  | child :: rest =>
    match clock.bornAt child with
    | some last =>
      if Steps.distance clock.now last < quarter then some last
      else closeChild? clock quarter rest
    | none => closeChild? clock quarter rest

def checkParent (law : Parameters) (p : Population) (clock : Clock) (parent : Digest) :
    Except BirthError Unit :=
  match clock.bornAt parent, p.lifecycle? parent with
  | none, _ => .error (.parentNotInTimeProof parent)
  | _, none => .error (.unknownParent parent)
  | some born, some lifecycle =>
    if Steps.plus born lifecycle ≤ clock.now then
      .error (.parentExpired parent born lifecycle clock.now)
    else
      let age := Steps.minus clock.now born
      if age < law.quarter then .error (.parentTooYoung parent age law.quarter)
      else
        match closeChild? clock law.quarter (p.children parent) with
        | some last => .error (.cosignRateLimited parent last clock.now)
        | none => .ok ()

/-- Checks both parents; the first one that fails is reported. -/
def checkParents (law : Parameters) (p : Population) (parents : Digest × Digest) (clock : Clock) :
    Except BirthError Unit := do
  checkParent law p clock parents.1
  checkParent law p clock parents.2

end Lineage.Law
