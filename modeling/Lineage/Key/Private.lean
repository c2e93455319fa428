import Lineage.Key.Public

/-!
# Private keys and signatures

A signature over a digest is the concatenation of the signatures of all keys, in key order.
-/

namespace Lineage

inductive PrivateKey where
  | single (k : Curve.Secret)
  | threshold (ks : List Curve.Secret)
  deriving DecidableEq

/-- A signature together with the public key it claims to belong to. -/
structure Signature where
  publicKey : PublicKey
  octets : Octets
  deriving DecidableEq

namespace PrivateKey

/-- The secrets in signing order. -/
def secrets : PrivateKey → List Curve.Secret
  | .single k => [k]
  | .threshold ks => ks

def scheme : PrivateKey → Scheme
  | .single _ => .single
  | .threshold ks => .threshold ks.length

/-- What may be shown of a private key. -/
def label (k : PrivateKey) : String :=
  "PrivateKeyMaterial \x7b scheme: " ++ k.scheme.text ++ ", .. \x7d"

def publicKey : PrivateKey → PublicKey
  | .single k => .single (.ofSecret k)
  | .threshold ks => .threshold (ks.map .ofSecret)

/-- The point of a secret, unless its multiple of the generator is the neutral element. -/
def derivePoint (k : Curve.Secret) : Except KeyError Point :=
  match (Curve.Jacobian.multiple k.toNat Curve.Jacobian.generator).affine? with
  | some (x, y) => .ok ⟨.ofNat x, .ofNat y⟩
  | none => .error (.invalidKey "identity point")

/-- The points of secrets, all of which need one. -/
def derivePoints : List Curve.Secret → Except KeyError (List Point)
  | [] => .ok []
  | k :: ks => do return (← derivePoint k) :: (← derivePoints ks)

/-- The public half, derived point by point. No secret lacks its point, so it is `publicKey`. -/
def derivePublic (key : PrivateKey) : Except KeyError PublicKey := do
  let points ← derivePoints key.secrets
  match key, points with
  | .single _, p :: _ => .ok (.single p)
  | .single _, [] => .error (.paramsMissing "public key")
  | .threshold _, ps => .ok (.threshold ps)

/-- The secrets that words spell, all of which have to be in range. -/
def secretsOf : List Word256 → Except KeyError (List Curve.Secret)
  | [] => .ok []
  | w :: rest =>
    match Curve.Secret.ofWord? w with
    | some k => do return k :: (← secretsOf rest)
    | none => .error .outOfRange

/-- The key with these secrets. Their number has to fit the scheme before any of them is looked
at, and a scheme without keys has no key. -/
def ofSecretWords (scheme : Scheme) (words : List Word256) : Except KeyError PrivateKey :=
  if words.length ≠ scheme.keyCount then .error (.keyCountMismatch scheme.keyCount words.length)
  else do
    let ks ← secretsOf words
    match scheme, ks with
    | .single, [k] => .ok (.single k)
    | .single, _ => .error (.paramsMissing "secret key")
    | .threshold 0, _ => .error (.paramsMissing "threshold key count")
    | .threshold _, ks => .ok (.threshold ks)

def toSecretWords (k : PrivateKey) : List Word256 := k.secrets.map (·.word)

/-- The signature of a digest by one secret. -/
def signPart (digest : Word256) (k : Curve.Secret) : Except KeyError Octets :=
  (Curve.sign? k digest).elim (.error (.signing "signature error")) .ok

/-- The signatures of a digest by each of some secrets, one after the other. -/
def signAll (digest : Word256) : List Curve.Secret → Except KeyError Octets
  | [] => .ok []
  | k :: ks => do return (← signPart digest k) ++ (← signAll digest ks)

def sign (k : PrivateKey) (digest : Word256) : Except KeyError Signature := do
  return ⟨k.publicKey, ← signAll digest k.secrets⟩

end PrivateKey

namespace Signature

def verify (s : Signature) (digest : Word256) : Except KeyError Bool :=
  s.publicKey.verify digest s.octets

def toJson (s : Signature) : Json :=
  .object [("public_key", s.publicKey.toJson), ("bytes", s.octets.toJson)]

def decode : Decoder Signature := fun j => do
  let form := Form.field "public_key" PublicKey.decode <| .field "bytes" Decoder.octets .empty
  match ← form.read j with
  | (some publicKey, some octets, ()) => return ⟨publicKey, octets⟩
  | _ => .error .malformed

end Signature

/-- What secrets are drawn from, one after the other. -/
class Source (σ : Type) where
  draw : σ → Curve.Secret × σ

/-- Draws a number of secrets. -/
def Source.drawMany {σ : Type} [Source σ] : Nat → σ → List Curve.Secret × σ
  | 0, s => ([], s)
  | n + 1, s =>
    let (k, s) := draw s
    let (ks, s) := drawMany n s
    (k :: ks, s)

/-- A fresh key of a scheme. -/
def PrivateKey.generate {σ : Type} [Source σ] (scheme : Scheme) (s : σ) :
    Except KeyError (PrivateKey × σ) :=
  match scheme with
  | .single =>
    let (k, s) := Source.draw s
    .ok (.single k, s)
  | .threshold 0 => .error (.paramsMissing "threshold key count")
  | .threshold n =>
    let (ks, s) := Source.drawMany n s
    .ok (.threshold ks, s)

/-- A source that can be foreseen: a seed, and how often it was drawn from. -/
structure Entropy where
  seed : Octets
  drawn : Nat

/-- The secrets come in ascending order from the number that the seed spells, and after the greatest
one from the least one again. -/
instance : Source Entropy where
  draw e :=
    let n := (Octets.toNat e.seed + e.drawn) % (Curve.groupOrder - 1) + 1
    have lt : n < Curve.groupOrder := by
      have := Nat.mod_lt (Octets.toNat e.seed + e.drawn) (show 0 < Curve.groupOrder - 1 by decide)
      omega
    have eq : (Word256.ofNat n).toNat = n := by
      rw [Word256.toNat_ofNat]
      exact Nat.mod_eq_of_lt (Nat.lt_trans lt (by decide))
    (⟨.ofNat n, by rw [eq]; omega, by rw [eq]; exact lt⟩, { e with drawn := e.drawn + 1 })

/-- The digest of a payload, as it is signed. -/
def payloadDigest (payload : Octets) : Word256 := Sha256.hash payload

end Lineage
