import Lineage.Proofs.Birth.Cosigning
import Lineage.Proofs.Wire.Records

/-!
# What parents sign

The first parent signs the text of an identity, the second one this text followed by the octets of
the first signature. Nothing stands between the two, and a name may hold any characters, but the
text is that of an object, so it shows by itself where it ends. Hence what is signed tells whether
it is signed as the first or as the second one, for whom, and after which signature. The same goes
for its digest unless the hash function collides.

It does not go for the signature. A signature belongs to one digest only under a key that was chosen
before: whoever chooses the key after the signature can have it accepted for two digests, so that it
serves in either turn.
-/
namespace Lineage

/-- Different octet strings with one digest. -/
def Sha256.Collision (b c : Octets) : Prop := b ≠ c ∧ Sha256.hash b = Sha256.hash c

theorem Sha256.eq_or_collision {b c : Octets} (h : payloadDigest b = payloadDigest c) :
    b = c ∨ Collision b c := by
  by_cases same : b = c
  · exact .inl same
  · exact .inr ⟨same, h⟩

/-- Different digests for which a key accepts one signature. -/
structure PublicKey.Ambiguous (k : PublicKey) (signature : Octets) (digest other : Word256) :
    Prop where
  ne : digest ≠ other
  accepts : k.verify digest signature = .ok true
  accepts_other : k.verify other signature = .ok true

namespace Identity

variable {i j : Identity} {s t : Octets}

/-- The octets of an identity are told apart from whatever follows them. -/
theorem canonical_append_injective (h : i.canonical ++ s = j.canonical ++ t) : i = j ∧ s = t := by
  obtain ⟨members, rest⟩ := i.writable_toJson.octets_append_injective j.writable_toJson h
  exact ⟨toJson_injective (congrArg Json.object members), rest⟩

theorem canonical_injective (h : i.canonical = j.canonical) : i = j :=
  (canonical_append_injective (congrArg (· ++ ([] : Octets)) h)).1

/-- What a first parent signs is nothing that a second parent signs. -/
theorem canonical_ne_append (signed : t ≠ []) : i.canonical ≠ j.canonical ++ t := by
  intro h
  rw [← List.append_nil i.canonical] at h
  exact signed (canonical_append_injective h).2.symm

/-- A digest that is signed in either turn is a collision. -/
theorem collision_of_payload_eq (signed : t ≠ []) (h : i.firstPayload = j.secondPayload t) :
    Sha256.Collision i.canonical (j.canonical ++ t) :=
  ⟨canonical_ne_append signed, h⟩

/-- The octets under a signature determine the identity and the first signature, if there is one.
Their digests do so up to collisions of the hash function, and nothing is signed in both turns. -/
theorem payloads_bind :
    (∀ (i j : Identity) (s t : Octets), i.canonical ++ s = j.canonical ++ t → i = j ∧ s = t) ∧
    (∀ (i j : Identity) (t : Octets), t ≠ [] → i.canonical ≠ j.canonical ++ t) ∧
    (∀ i j : Identity, i.firstPayload = j.firstPayload →
      i = j ∨ Sha256.Collision i.canonical j.canonical) ∧
    (∀ (i j : Identity) (s t : Octets), i.secondPayload s = j.secondPayload t →
      (i = j ∧ s = t) ∨ Sha256.Collision (i.canonical ++ s) (j.canonical ++ t)) ∧
    (∀ (i j : Identity) (t : Octets), t ≠ [] → i.firstPayload = j.secondPayload t →
      Sha256.Collision i.canonical (j.canonical ++ t)) ∧
    ∀ (i j : Identity) (t signature : Octets) (k : PublicKey), t ≠ [] →
      k.verify i.firstPayload signature = .ok true →
      k.verify (j.secondPayload t) signature = .ok true →
      Sha256.Collision i.canonical (j.canonical ++ t) ∨
        k.Ambiguous signature i.firstPayload (j.secondPayload t) := by
  refine ⟨fun _ _ _ _ => canonical_append_injective, fun _ _ _ => canonical_ne_append, ?first,
    ?second, fun _ _ _ => collision_of_payload_eq, ?mixed⟩
  case first =>
    intro i j h
    rcases Sha256.eq_or_collision h with same | collision
    · exact .inl (canonical_injective same)
    · exact .inr collision
  case second =>
    intro i j s t h
    rcases Sha256.eq_or_collision h with same | collision
    · exact .inl (canonical_append_injective same)
    · exact .inr collision
  case mixed =>
    intro i j t signature k signed first second
    by_cases same : i.firstPayload = j.secondPayload t
    · exact .inl (collision_of_payload_eq signed same)
    · exact .inr ⟨same, first, second⟩

end Identity

namespace Sample

/-- The secret that makes one signature good for Abel's identity, alone and after Adam's
signature. It was solved for from the two digests and the nonce 1. -/
def twofoldSecret : Curve.Secret :=
  ⟨.ofNat 0xbdcae646e66bbc4a8d12cf4fef4c1755b169d6cd33b9315ea1de3d91a7275417, by decide, by decide⟩

def twofoldKey : PublicKey := (PrivateKey.single twofoldSecret).publicKey

def twofoldPart : Octets := signature
  0x6b17d1f2e12c4247f8bce6e563a440f277037d812deb33a0f4a13945d898c296
  0x61a841033773346fe20c0d58016210939e7cabc6cd021d8396acacfe06cbbb9c

theorem twofold_first : twofoldKey.verify abel.firstPayload twofoldPart = .ok true := by
  decide +kernel

theorem twofold_second :
    twofoldKey.verify (abel.secondPayload approvals.1.signature) twofoldPart = .ok true := by
  decide +kernel

theorem payloads_ne : abel.firstPayload ≠ abel.secondPayload approvals.1.signature := by
  decide +kernel

theorem approvals_ne_nil : approvals.1.signature ≠ [] := by decide

end Sample

namespace Identity

open Sample

/-- Eve's octets after her identity are not Adam's after his, and no collision is needed for a
signature under Abel's identity that is good in both turns: its key may be to blame. -/
theorem payloads_bind_abel :
    adam.identity.canonical ++ approvals.1.signature ≠
      eve.identity.canonical ++ approvals.2.signature ∧
    abel.canonical ≠ abel.canonical ++ approvals.1.signature ∧
    (Sha256.Collision abel.canonical (abel.canonical ++ approvals.1.signature) ∨
      twofoldKey.Ambiguous twofoldPart abel.firstPayload
        (abel.secondPayload approvals.1.signature)) := by
  have differ : adam.identity ≠ eve.identity := by decide
  exact ⟨fun h => differ (payloads_bind.1 _ _ _ _ h).1,
    payloads_bind.2.1 abel abel _ approvals_ne_nil,
    payloads_bind.2.2.2.2.2 abel abel _ _ _ approvals_ne_nil twofold_first twofold_second⟩

/-- A signature may be good in both turns without a collision. -/
theorem good_in_both_turns :
    approvals.1.signature ≠ [] ∧
    twofoldKey.verify abel.firstPayload twofoldPart = .ok true ∧
    twofoldKey.verify (abel.secondPayload approvals.1.signature) twofoldPart = .ok true ∧
    ¬ Sha256.Collision abel.canonical (abel.canonical ++ approvals.1.signature) :=
  ⟨approvals_ne_nil, twofold_first, twofold_second, fun collision => payloads_ne collision.2⟩

end Identity

end Lineage
