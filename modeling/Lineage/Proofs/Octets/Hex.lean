import Lineage.Octets.Hex
import Lineage.Proofs.Octets.Text

/-!
# Hexadecimal text can be read back

The digits that an octet string is written with are read as the same octets, whatever its length.
Different octet strings therefore have different texts.
-/
namespace Lineage.Hex

@[simp] theorem encode_nil : encode [] = [] := rfl

theorem encode_cons (x : UInt8) (b : Octets) : encode (x :: b) = encodeOctet x ++ encode b :=
  List.flatMap_cons

/-- The octet of a digit, and the value that it is read as. -/
theorem ofText_digitChar {d : Nat} (h : d < 16) :
    Octets.ofText [Nat.digitChar d] = [UInt8.ofNat (Nat.digitChar d).toNat] ∧
      digit? (UInt8.ofNat (Nat.digitChar d).toNat) = some d := by
  revert d
  decide

/-- The two octets that one octet is written with. -/
theorem ofText_encodeOctet (x : UInt8) :
    ∃ high low, Octets.ofText (encodeOctet x) = [high, low] ∧
      digit? high = some (x.toNat / 16) ∧ digit? low = some (x.toNat % 16) := by
  have hx : x.toNat < 256 := x.toNat_lt
  obtain ⟨hhigh, dhigh⟩ := ofText_digitChar (d := x.toNat / 16) (by omega)
  obtain ⟨hlow, dlow⟩ := ofText_digitChar (d := x.toNat % 16) (by omega)
  refine ⟨_, _, ?_, dhigh, dlow⟩
  rw [encodeOctet, ← List.singleton_append, Octets.ofText_append, hhigh, hlow,
    List.singleton_append]

theorem length_ofText_encode (b : Octets) : (Octets.ofText (encode b)).length = 2 * b.length := by
  induction b with
  | nil => rfl
  | cons x b ih =>
    obtain ⟨high, low, heq, -, -⟩ := ofText_encodeOctet x
    rw [encode_cons, Octets.ofText_append, heq, List.length_append, ih]
    simp only [List.length_cons, List.length_nil]
    omega

theorem decodePairs_encode (index : Nat) (b : Octets) :
    decodePairs index (Octets.ofText (encode b)) = .ok b := by
  induction b generalizing index with
  | nil => rfl
  | cons x b ih =>
    obtain ⟨high, low, heq, hhigh, hlow⟩ := ofText_encodeOctet x
    have hx : UInt8.ofNat (16 * (x.toNat / 16) + x.toNat % 16) = x := by
      rw [Nat.div_add_mod, UInt8.ofNat_toNat]
    rw [encode_cons, Octets.ofText_append, heq]
    simp only [List.cons_append, List.nil_append, decodePairs, digit, hhigh, hlow, ih]
    exact congrArg (fun y => Except.ok (y :: b)) hx

/-- The text of an octet string spells the octet string. -/
@[simp] theorem decode_text (b : Octets) : decode (text b) = .ok b := by
  have hlen := length_ofText_encode b
  rw [decode, text, String.toList_ofList]
  simp only [hlen, decodePairs_encode]
  rw [if_neg (by omega)]

theorem text_injective {b c : Octets} (h : text b = text c) : b = c := by
  have hb := decode_text b
  rw [h, decode_text] at hb
  exact (Except.ok.inj hb).symm

/-- The 64 digits of a word spell the word. -/
@[simp] theorem decodeWord_hex (w : Word256) : decodeWord w.hex = .ok w := by
  have hlen : (Octets.ofText (encode w.octets)).length = 64 := by
    rw [length_ofText_encode, w.length_octets]
  rw [decodeWord, Word256.hex, text, String.toList_ofList]
  simp only [hlen, decodePairs_encode]
  exact dif_pos w.length_octets

end Lineage.Hex

namespace Lineage.Word256

theorem hex_injective {v w : Word256} (h : v.hex = w.hex) : v = w :=
  Word256.ext (Hex.text_injective h)

end Lineage.Word256
