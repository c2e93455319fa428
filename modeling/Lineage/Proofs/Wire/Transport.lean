import Lineage.Proofs.Universe.Reachable
import Lineage.Proofs.Wire.Records

/-!
# Transport

Messages, accounts, certificates, signatures and snapshots survive being written as JSON text and
read again. All that is computed from a message or an account is then the same on both sides: names,
what is signed, and whether a signature is good.
-/
namespace Lineage

/-- What is written is read back. Keys have to be valid, which is checked where they are read;
nothing is asked of names, octet strings, digests and the lengths of lists. -/
theorem wire_round_trip :
    (∀ m : Message, m.body.ValidKey →
      Decoder.ofText Message.decode m.toJson.text = .ok m ∧
      ∀ m', Decoder.ofText Message.decode m.toJson.text = .ok m' →
        m'.contentId = m.contentId ∧ m'.signedDigest = m.signedDigest ∧
          ∀ key, m'.verifySignature key = m.verifySignature key) ∧
    (∀ a : Account, a.identity.key.Valid →
      Decoder.ofText Account.decode a.toJson.text = .ok a ∧
      ∀ a', Decoder.ofText Account.decode a.toJson.text = .ok a' → a'.id = a.id) ∧
    (∀ c : Certificate, c.identity.key.Valid →
      Decoder.ofText Certificate.decode c.toJson.text = .ok c) ∧
    (∀ s : Signature, s.publicKey.Valid →
      Decoder.ofText Signature.decode s.toJson.text = .ok s) ∧
    ∀ s : Snapshot, Decoder.ofText Snapshot.decode s.toJson.text = .ok s := by
  refine ⟨?message, ?account, ?certificate, ?signature, ?snapshot⟩
  case message =>
    intro m hm
    have back := Decoder.ofText_eq_ok m.writable_toJson (Message.decode_toJson hm)
    refine ⟨back, ?_⟩
    intro m' h
    cases back.symm.trans h
    exact ⟨rfl, rfl, fun _ => rfl⟩
  case account =>
    intro a ha
    have back := Decoder.ofText_eq_ok a.writable_toJson (Account.decode_toJson ha)
    refine ⟨back, ?_⟩
    intro a' h
    cases back.symm.trans h
    rfl
  case certificate =>
    intro c hc
    exact Decoder.ofText_eq_ok c.writable_toJson (Certificate.decode_toJson hc)
  case signature =>
    intro s hs
    exact Decoder.ofText_eq_ok s.writable_toJson (Signature.decode_toJson hs)
  case snapshot =>
    intro s
    exact Decoder.ofText_eq_ok s.writable_toJson s.decode_toJson

namespace Sample

theorem valid_adam : adam.identity.key.Valid where
  onCurve := by decide +kernel
  points_ne_nil := nofun

theorem valid_abel : abel.key.Valid where
  onCurve := by decide +kernel
  points_ne_nil := nofun

end Sample

/-- Adam, the birth of Abel, an unsigned certificate and a signature are read back. -/
theorem wire_round_trip_family :
    Sample.birth.body.ValidKey ∧ Sample.adam.identity.key.Valid ∧
      Decoder.ofText Message.decode Sample.birth.toJson.text = .ok Sample.birth ∧
      Decoder.ofText Account.decode Sample.adam.toJson.text = .ok Sample.adam ∧
      Decoder.ofText Certificate.decode (Certificate.unsigned Sample.abel).toJson.text =
        .ok (.unsigned Sample.abel) ∧
      Decoder.ofText Signature.decode
        (Signature.toJson ⟨Sample.abel.key, Sample.birth.signature⟩).text =
          .ok ⟨Sample.abel.key, Sample.birth.signature⟩ :=
  ⟨Sample.valid_abel, Sample.valid_adam, (wire_round_trip.1 Sample.birth Sample.valid_abel).1,
    (wire_round_trip.2.1 Sample.adam Sample.valid_adam).1,
    wire_round_trip.2.2.1 (.unsigned Sample.abel) Sample.valid_abel,
    wire_round_trip.2.2.2.1 ⟨Sample.abel.key, Sample.birth.signature⟩ Sample.valid_abel⟩

end Lineage
