import Lineage.Digest.Map
import Lineage.Proofs.Octets.Spelling

/-!
# Digests and their texts

A digest is written with 64 digits and read from 64 digits of either case. Digits come in the order
of their values, so of two octets the greater one has the greater text, whatever follows. Texts are
therefore in the same order as the digests that they spell, and sets and maps of digests list their
texts in ascending order.
-/
namespace Lineage

namespace Hex

/-- Digits are ordered, and told apart, as their values are. -/
theorem digitChar_order : ∀ m < 16, ∀ n < 16,
    (Nat.digitChar m < Nat.digitChar n ↔ m < n) ∧
      (Nat.digitChar m = Nat.digitChar n ↔ m = n) := by
  decide

/-- Behind equal octets the rest decides, and otherwise the first of two digits that differ. -/
theorem encodeOctet_append_lt {x y : UInt8} {s t : List Char} :
    encodeOctet x ++ s < encodeOctet y ++ t ↔ x < y ∨ x = y ∧ s < t := by
  have hx : x.toNat < 256 := x.toNat_lt
  have hy : y.toNat < 256 := y.toNat_lt
  obtain ⟨high_lt, high_eq⟩ := digitChar_order (x.toNat / 16) (by omega) (y.toNat / 16) (by omega)
  obtain ⟨low_lt, low_eq⟩ := digitChar_order (x.toNat % 16) (by omega) (y.toNat % 16) (by omega)
  simp only [encodeOctet, List.cons_append, List.nil_append, List.cons_lt_cons_iff, high_lt,
    high_eq, low_lt, low_eq]
  rw [UInt8.lt_iff_toNat_lt, ← UInt8.toNat_inj]
  by_cases rest : s < t
  · simp only [rest, and_true]
    omega
  · simp only [rest, and_false, or_false]
    omega

theorem encode_lt {b c : Octets} : encode b < encode c ↔ b < c := by
  induction b generalizing c with
  | nil =>
    cases c with
    | nil => simp only [List.lt_irrefl]
    | cons y c =>
      have longer : encode [] < encode (y :: c) := List.nil_lt_cons _ _
      simp only [longer, List.nil_lt_cons]
  | cons x b ih =>
    cases c with
    | nil => simp only [encode_nil, List.not_lt_nil]
    | cons y c =>
      rw [encode_cons, encode_cons, encodeOctet_append_lt, ih, List.cons_lt_cons_iff]

end Hex

namespace Word256

/-- Words come in the order of their texts. -/
theorem hex_lt {v w : Word256} : v.hex < w.hex ↔ v < w := by
  rw [hex, hex, Hex.text, Hex.text, String.lt_iff, String.toList_ofList, String.toList_ofList,
    Hex.encode_lt, lt_def]

end Word256

namespace Digest

/-- Just the texts of 64 digits spell digests, which are written in lower case. Digests are ordered
as their texts are, so sets and maps list the texts in ascending order. -/
theorem texts_exact_in_order :
    (∀ d : Digest, Hex.decodeWord d.hex = .ok d) ∧
    (∀ s, (∃ d : Digest, Hex.decodeWord s = .ok d) ↔ Hex.IsWordText s) ∧
    (∀ s (d : Digest), Hex.decodeWord s = .ok d ↔ Hex.Spells s d) ∧
    (∀ s e, Hex.decodeWord s = .error e ↔ Hex.WordFault s e) ∧
    (∀ d e : Digest, d < e ↔ d.hex < e.hex) ∧
    (∀ s : DigestSet, (s.toList.map Word256.hex).Pairwise (· < ·)) ∧
    ∀ (α : Type) (m : DigestMap α), (m.entries.map fun e => e.1.hex).Pairwise (· < ·) := by
  refine ⟨Hex.decodeWord_hex, ?reads, fun s => (Hex.decodeWord_exact s).1,
    fun s => (Hex.decodeWord_exact s).2, fun _ _ => Word256.hex_lt.symm, ?set, ?map⟩
  case reads =>
    intro s
    constructor
    · rintro ⟨d, read⟩
      have spells := ((Hex.decodeWord_exact s).1 d).1 read
      exact spells.isWordText
    · intro word
      obtain ⟨d, read, -⟩ := word.exists_word
      exact ⟨d, read⟩
  case set =>
    intro s
    exact List.pairwise_map.2 (s.ascending.imp Word256.hex_lt.2)
  case map =>
    intro α m
    exact List.pairwise_map.2 (m.ascending.imp Word256.hex_lt.2)

end Digest

end Lineage
