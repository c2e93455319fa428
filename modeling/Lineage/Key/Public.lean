import Lineage.Curve.Ecdsa
import Lineage.Wire.Decoder

/-!
# Public keys

The public half of an account's keys is one point of the curve, or a list of points for keys that
must all sign. It travels as a source name, the name of the scheme, and the coordinates of the
points in signing order, each as 64 hexadecimal digits.
-/

namespace Lineage

/-- A public point in affine coordinates. -/
structure Point where
  x : Word256
  y : Word256
  deriving DecidableEq

namespace Point

def OnCurve (p : Point) : Prop := Curve.OnCurve p.x.toNat p.y.toNat

instance (p : Point) : Decidable p.OnCurve := by unfold OnCurve; infer_instance

/-- The point with these coordinates, when it lies on the curve. -/
def ofCoordinates (x y : Word256) : Except KeyError Point :=
  if (⟨x, y⟩ : Point).OnCurve then .ok ⟨x, y⟩ else .error .outOfRange

def ofJacobian (p : Curve.Jacobian) : Point :=
  match p.affine? with
  | some (x, y) => ⟨.ofNat x, .ofNat y⟩
  | none => ⟨.ofNat 0, .ofNat 0⟩

/-- The public point of a secret: its multiple of the generator. A secret is below the order of
the generator, so this is never the neutral element. -/
def ofSecret (k : Curve.Secret) : Point :=
  ofJacobian (Curve.Jacobian.multiple k.toNat Curve.Jacobian.generator)

/-- A short name of a point for messages. -/
def label (p : Point) : String := "EcPoint(" ++ Hex.text (p.x.octets.take 6) ++ "..)"

/-- The number of octets of the signature of one key. -/
def signatureLength : Nat := 64

/-- Whether 64 octets are a signature of the digest by the key of this point. -/
def verifies (p : Point) (digest : Word256) (signature : Octets) : Bool :=
  decide (Curve.Verifies p.x.toNat p.y.toNat digest
    (Octets.toNat (signature.take 32)) (Octets.toNat (signature.drop 32)))

end Point

inductive PublicKey where
  | single (p : Point)
  | threshold (ps : List Point)
  deriving DecidableEq

namespace PublicKey

/-- The points in signing order. -/
def points : PublicKey → List Point
  | .single p => [p]
  | .threshold ps => ps

def scheme : PublicKey → Scheme
  | .single _ => .single
  | .threshold ps => .threshold ps.length

/-- The last bit of the first point's x, zero when there is no point. -/
def lowBit (k : PublicKey) : Nat :=
  match k.points with
  | p :: _ => p.x.toNat % 2
  | [] => 0

def label : PublicKey → String
  | .single p => "Single(" ++ p.label ++ ")"
  | .threshold ps => "Threshold([" ++ ", ".intercalate (ps.map Point.label) ++ "])"

/-- Whether every key has signed its part. -/
def verifiesParts (k : PublicKey) (digest : Word256) (parts : List Octets) : Bool :=
  (k.points.zip parts).all fun (p, part) => p.verifies digest part

/-- Whether a string of octets is a signature of the digest by all keys. The string has to be as
long as the keys require; every key then has its own part of it. -/
def verify (k : PublicKey) (digest : Word256) (signature : Octets) : Except KeyError Bool :=
  let width := Point.signatureLength
  let count := signature.length / width
  if signature.length = 0 ∨ signature.length % width ≠ 0 then
    .error (.malformedSignature signature.length width)
  else
    match k with
    | .single p =>
      if count ≠ 1 then .error (.schemeMismatch .single (.threshold count))
      else .ok (verifiesParts (.single p) digest (signature.pieces width))
    | .threshold ps =>
      if ps.length ≠ count then .error (.keyCountMismatch ps.length count)
      else .ok (verifiesParts (.threshold ps) digest (signature.pieces width))

/-- The form in which public keys travel. -/
structure Wire where
  source : String
  sigType : String
  pubKey : List String
  deriving DecidableEq

/-- The source name of all keys. -/
def sourceName : String := "KINSHIP"

/-- The name of the scheme with one key. -/
def singleName : String := "S2PK"

/-- The name of the schemes in which all of several keys sign. -/
def thresholdName : String := "MS"

def toWire (k : PublicKey) : Wire :=
  ⟨sourceName,
    match k with
    | .single _ => singleName
    | .threshold _ => thresholdName,
    k.points.flatMap fun p => [p.x.hex, p.y.hex]⟩

def coordinate (s : String) : Except KeyError Word256 :=
  match Hex.decodeWord s with
  | .ok w => .ok w
  | .error e => .error (.invalidKey ("bad coordinate " ++ Text.quoted s ++ ": " ++ e.message))

/-- The points that coordinates spell, two to the point. -/
def pointsOf : List String → Except KeyError (List Point)
  | x :: y :: rest => do
    let p ← Point.ofCoordinates (← coordinate x) (← coordinate y)
    return p :: (← pointsOf rest)
  | _ => .ok []

/-- Checks the source, the number of coordinates, every point from the first to the last, and the
scheme with its number of keys, and reports what fails first. -/
def ofWire (w : Wire) : Except KeyError PublicKey :=
  if w.source ≠ sourceName then .error (.sourceMismatch sourceName w.source)
  else if w.pubKey.length % 2 ≠ 0 then
    .error (.invalidKey s!"odd coordinate count {w.pubKey.length}")
  else do
    let points ← pointsOf w.pubKey
    if w.sigType = singleName then
      match points with
      | [p] => .ok (.single p)
      | _ => .error (.keyCountMismatch 1 points.length)
    else if w.sigType = thresholdName then
      if points.isEmpty then .error (.paramsMissing "threshold keys") else .ok (.threshold points)
    else .error (.unsupportedScheme w.sigType)

def Wire.toJson (w : Wire) : Json :=
  .object [("source", .string w.source), ("sigType", .string w.sigType),
    ("pubKey", .array (w.pubKey.map fun s => .string (.plain s)))]

def Wire.decode : Decoder Wire := fun j => do
  let form := Form.field "source" Decoder.string <| .field "sigType" Decoder.string <|
    .field "pubKey" (Decoder.list Decoder.string) .empty
  match ← form.read j with
  | (some source, some sigType, some pubKey, ()) => return ⟨source, sigType, pubKey⟩
  | _ => .error .malformed

def toJson (k : PublicKey) : Json := k.toWire.toJson

def decode : Decoder PublicKey := fun j => do
  match ofWire (← Wire.decode j) with
  | .ok k => .ok k
  | .error e => .error (.key e)

end PublicKey

namespace Scheme

def toJson : Scheme → Json
  | .single => .string "Single"
  | .threshold n => .object [("Threshold", .number n)]

def decode : Decoder Scheme
  | .object [(.plain "Threshold", n)] => do return .threshold (← Decoder.natural n)
  | j => Decoder.oneOf [("Single", .single)] j

end Scheme

end Lineage
