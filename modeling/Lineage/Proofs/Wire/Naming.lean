import Lineage.Proofs.Universe.Reachable
import Lineage.Proofs.Wire.Records

/-!
# What names stand for

An account is named by the digest of a tag and its text, and a message by the digest of another tag
and the text of what it says. The tags differ before either of them ends, and a text determines what
it was written for. So two things that are told apart have different octets, and one name for both
would be a collision of the hash function at these octets.
-/
namespace Lineage

/-- Different octet strings with one digest. -/
def Blake3.Collision (b c : Octets) : Prop := b ≠ c ∧ Blake3.hash b = Blake3.hash c

/-- The octets that the name of an account is the digest of. -/
def Account.preimage (a : Account) : Octets := Account.idTag ++ a.toJson.octets

/-- The octets that the id of a message is the digest of. -/
def Message.preimage (m : Message) : Octets := Message.idTag ++ m.canonical

/-- Messages of one sender with the same content and references. -/
def Message.SaysSame (m n : Message) : Prop :=
  m.sender = n.sender ∧ m.body = n.body ∧ m.references = n.references

theorem Account.id_eq (a : Account) : a.id = Blake3.hash a.preimage := rfl

theorem Message.contentId_eq (m : Message) : m.contentId = Blake3.hash m.preimage := rfl

theorem Account.eq_of_octets_eq {a b : Account} (h : a.toJson.octets = b.toJson.octets) : a = b :=
  toJson_injective (a.writable_toJson.eq_of_octets_eq b.writable_toJson h)

theorem Message.saysSame_of_canonical_eq {m n : Message} (h : m.canonical = n.canonical) :
    m.SaysSame n :=
  signedJson_injective (m.writable_signedJson.eq_of_octets_eq n.writable_signedJson h)

/-- The tags differ in their ninth octet, and both have more octets than that. -/
theorem account_preimage_ne_message_preimage (a : Account) (m : Message) :
    a.preimage ≠ m.preimage := by
  intro h
  have head : Account.idTag.take 9 = Message.idTag.take 9 := by
    have take := congrArg (List.take 9) h
    rwa [Account.preimage, Message.preimage, List.take_append_of_le_length (by decide),
      List.take_append_of_le_length (by decide)] at take
  exact absurd head (by decide)

/-- Texts determine what they were written for, so what shares a name is the same or a collision of
the hash function. An account and a message never have the same octets. -/
theorem preimages_injective :
    (∀ a b : Account, a.toJson.octets = b.toJson.octets → a = b) ∧
    (∀ m n : Message, m.canonical = n.canonical → m.SaysSame n) ∧
    (∀ (a : Account) (m : Message), a.preimage ≠ m.preimage) ∧
    (∀ a b : Account, a.id = b.id → a = b ∨ Blake3.Collision a.preimage b.preimage) ∧
    (∀ m n : Message, m.contentId = n.contentId →
      m.SaysSame n ∨ Blake3.Collision m.preimage n.preimage) ∧
    ∀ (a : Account) (m : Message), a.id = m.contentId →
      Blake3.Collision a.preimage m.preimage := by
  refine ⟨fun _ _ => Account.eq_of_octets_eq, fun _ _ => Message.saysSame_of_canonical_eq,
    account_preimage_ne_message_preimage, ?accounts, ?messages, ?mixed⟩
  case accounts =>
    intro a b hid
    rw [Account.id_eq, Account.id_eq] at hid
    by_cases h : a.preimage = b.preimage
    · exact .inl (Account.eq_of_octets_eq (List.append_cancel_left h))
    · exact .inr ⟨h, hid⟩
  case messages =>
    intro m n hid
    rw [Message.contentId_eq, Message.contentId_eq] at hid
    by_cases h : m.preimage = n.preimage
    · exact .inl (Message.saysSame_of_canonical_eq (List.append_cancel_left h))
    · exact .inr ⟨h, hid⟩
  case mixed =>
    intro a m hid
    rw [Account.id_eq, Message.contentId_eq] at hid
    exact ⟨account_preimage_ne_message_preimage a m, hid⟩

/-- Adam and Eve have different texts, Adam's octets are not those of his first message, and that
message without its signature still says the same. -/
theorem preimages_injective_adam :
    Sample.adam.toJson.octets ≠ Sample.eve.toJson.octets ∧
      Sample.adam.preimage ≠ Sample.first.preimage ∧
      Sample.first.SaysSame { Sample.first with signature := [] } := by
  have differ : Sample.adam ≠ Sample.eve := by decide
  refine ⟨fun h => differ (preimages_injective.1 _ _ h),
    preimages_injective.2.2.1 Sample.adam Sample.first, preimages_injective.2.1 _ _ rfl⟩

end Lineage
