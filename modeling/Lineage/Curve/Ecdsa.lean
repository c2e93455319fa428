import Lineage.Hash.Sha256
import Lineage.Curve.P256

/-!
# ECDSA over P-256

Signatures are pairs (r, s) of scalars, each written as 32 octets. The nonce of a signature is
derived from the secret and the digest by a generator with HMAC-SHA-256, so signing is a function.
Both signatures (r, s) and (r, n - s) are accepted.
-/

namespace Lineage.Curve

/-- A secret scalar: not zero, and below the group order. -/
structure Secret where
  word : Word256
  pos : 0 < word.toNat
  lt_groupOrder : word.toNat < groupOrder
  deriving DecidableEq

namespace Secret

def toNat (k : Secret) : Nat := k.word.toNat

/-- The secret with this word as its scalar, when the scalar is in range. -/
def ofWord? (w : Word256) : Option Secret :=
  if h : 0 < w.toNat ∧ w.toNat < groupOrder then some ⟨w, h.1, h.2⟩ else none

end Secret

/-- The state of the nonce generator: an HMAC key and a running value. -/
structure NonceState where
  key : Word256
  value : Word256

namespace NonceState

/-- Takes in a separator and further input, and advances the value. -/
def absorb (g : NonceState) (input : Octets) : NonceState :=
  let key := Sha256.mac g.key.octets (g.value.octets ++ input)
  ⟨key, Sha256.mac key.octets g.value.octets⟩

def initial (secret digest : Word256) : NonceState :=
  let seed := secret.octets ++ digest.octets
  let start : NonceState := ⟨default, ⟨List.replicate 32 1, by simp⟩⟩
  (start.absorb (0 :: seed)).absorb (1 :: seed)

/-- The next candidate. -/
def candidate (g : NonceState) : Word256 := Sha256.mac g.key.octets g.value.octets

/-- The first candidate in range, of at most `tries`. -/
def nonce? : Nat → NonceState → Option Secret
  | 0, _ => none
  | tries + 1, g =>
    match Secret.ofWord? g.candidate with
    | some k => some k
    | none => nonce? tries (NonceState.absorb ⟨g.key, g.candidate⟩ [0])

end NonceState

/-- The nonce for a secret and a digest. A candidate is out of range once in 2³², so the bound on
the number of candidates is never met. -/
def nonce? (secret : Secret) (digest : Word256) : Option Secret :=
  (NonceState.initial secret.word digest).nonce? 64

/-- The signature of a digest: the 64 octets of r and s. There is none when r or s comes out as
zero. -/
def sign? (secret : Secret) (digest : Word256) : Option Octets := do
  let k ← nonce? secret digest
  let (x, _) ← (Jacobian.multiple k.toNat Jacobian.generator).affine?
  let r := x % groupOrder
  let s := inverse groupOrder k.toNat * ((digest.toNat + r * secret.toNat) % groupOrder)
    % groupOrder
  if r = 0 ∨ s = 0 then none else some (Octets.ofNat 32 r ++ Octets.ofNat 32 s)

/-- Whether (r, s) is a signature of the digest under the public point (x, y). -/
def Verifies (x y : Nat) (digest : Word256) (r s : Nat) : Prop :=
  0 < r ∧ r < groupOrder ∧ 0 < s ∧ s < groupOrder ∧
    let w := inverse groupOrder s
    let u := digest.toNat * w % groupOrder
    let v := r * w % groupOrder
    (Jacobian.combination u Jacobian.generator v (Jacobian.ofAffine x y)).affine?.map
      (fun q => q.1 % groupOrder) = some r

instance (x y : Nat) (digest : Word256) (r s : Nat) : Decidable (Verifies x y digest r s) := by
  unfold Verifies; infer_instance

end Lineage.Curve
