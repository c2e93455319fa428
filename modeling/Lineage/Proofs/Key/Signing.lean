import Lineage.Key.Private
import Lineage.Proofs.Curve.Signatures
import Lineage.Proofs.Key.Signatures
import Mathlib.Data.List.Forall2

/-!
# What is signed is found good

A key signs with one part for each of its secrets, and its public half checks one part for each of
its points. Both go through the key in the same order and the parts are of one length, so every
point meets the part of its own secret. If each secret by itself makes signatures that its point
bears out, the key as a whole does, however many secrets it has.
-/
namespace Lineage

namespace Octets

variable {width : Nat} {parts : List Octets}

/-- A string that begins with a whole piece falls into this piece and those of the rest. -/
theorem pieces_append {b : Octets} (whole : b.length = width) (pos : 0 < width) (rest : Octets) :
    pieces width (b ++ rest) = b :: pieces width rest := by
  have count :
      ((b ++ rest).length + width - 1) / width = (rest.length + width - 1) / width + 1 := by
    rw [← Nat.add_div_right _ pos, List.length_append]
    congr 1
    omega
  rw [pieces, count, List.range_succ_eq_map, List.map_cons, List.map_map]
  congr 1
  · rw [Nat.mul_zero, List.drop_zero, List.take_left' whole]
  · apply List.map_congr_left
    intro i _
    have skip : width * (i + 1) = b.length + width * i := by
      rw [Nat.mul_succ, whole, Nat.add_comm]
    rw [Function.comp_apply, Nat.succ_eq_add_one, skip, List.drop_length_add_append]

/-- Pieces of one length are found again after they have been joined. -/
theorem pieces_flatten (whole : ∀ b ∈ parts, b.length = width) (pos : 0 < width) :
    pieces width parts.flatten = parts := by
  induction parts with
  | nil =>
    have none : (0 + width - 1) / width = 0 := Nat.div_eq_of_lt (by omega)
    rw [List.flatten_nil, pieces, List.length_nil, none]
    rfl
  | cons b parts ih =>
    have hb := whole b List.mem_cons_self
    rw [List.flatten_cons, pieces_append hb pos,
      ih fun c hc => whole c (List.mem_cons_of_mem b hc)]

theorem length_flatten (whole : ∀ b ∈ parts, b.length = width) :
    parts.flatten.length = parts.length * width := by
  induction parts with
  | nil => simp
  | cons b parts ih =>
    have hb := whole b List.mem_cons_self
    have hrest := ih fun c hc => whole c (List.mem_cons_of_mem b hc)
    rw [List.flatten_cons, List.length_append, hb, hrest, List.length_cons, Nat.succ_mul,
      Nat.add_comm]

end Octets

namespace Curve

theorem length_of_sign? {k : Secret} {digest : Word256} {part : Octets}
    (h : sign? k digest = some part) : part.length = Point.signatureLength := by
  obtain ⟨_, _, _, _, _, -, -, -, -, -, made⟩ := exists_of_sign? h
  rw [made, List.length_append, Octets.length_ofNat, Octets.length_ofNat]
  rfl

/-- Whether a secret signs a digest in such a way that its public point bears out the signature. It
does unless no nonce is found or a component comes out as zero. -/
def Secret.Signs (k : Secret) (digest : Word256) : Prop :=
  ∃ part, sign? k digest = some part ∧ (Point.ofSecret k).verifies digest part = true

end Curve

namespace PrivateKey

variable {digest : Word256} {key : PrivateKey} {ks : List Curve.Secret} {parts : List Octets}

/-- Parts of a signature, one for each of some secrets and in their order, which the public points
bear out. -/
def Signed (digest : Word256) : List Curve.Secret → List Octets → Prop :=
  List.Forall₂ fun k part =>
    Curve.sign? k digest = some part ∧ (Point.ofSecret k).verifies digest part = true

theorem signPart_of_sign? {k : Curve.Secret} {part : Octets}
    (h : Curve.sign? k digest = some part) : signPart digest k = .ok part := by
  rw [signPart, h]
  rfl

theorem exists_signed (signs : ∀ k ∈ ks, k.Signs digest) : ∃ parts, Signed digest ks parts := by
  induction ks with
  | nil => exact ⟨[], .nil⟩
  | cons k ks ih =>
    obtain ⟨part, hpart⟩ := signs k List.mem_cons_self
    obtain ⟨parts, hparts⟩ := ih fun l hl => signs l (List.mem_cons_of_mem k hl)
    exact ⟨part :: parts, .cons hpart hparts⟩

namespace Signed

theorem signAll_eq (h : Signed digest ks parts) : signAll digest ks = .ok parts.flatten := by
  induction h with
  | nil => rfl
  | cons hpart _ ih =>
    rw [signAll, signPart_of_sign? hpart.1, ih, List.flatten_cons]
    rfl

theorem length_part (h : Signed digest ks parts) :
    ∀ part ∈ parts, part.length = Point.signatureLength := by
  induction h with
  | nil => simp
  | cons hpart _ ih =>
    intro part hin
    rcases List.mem_cons.1 hin with rfl | hin
    · exact Curve.length_of_sign? hpart.1
    · exact ih part hin

theorem length_flatten (h : Signed digest ks parts) :
    parts.flatten.length = ks.length * Point.signatureLength := by
  rw [Octets.length_flatten h.length_part, List.Forall₂.length_eq h]

/-- Every point meets the part of its own secret. -/
theorem all_verifies (h : Signed digest ks parts) :
    ((ks.map Point.ofSecret).zip parts).all (fun (p, part) => p.verifies digest part) = true := by
  induction h with
  | nil => rfl
  | cons hpart _ ih =>
    rw [List.map_cons, List.zip_cons_cons, List.all_cons, ih, Bool.and_true]
    exact hpart.2

end Signed

theorem points_publicKey (key : PrivateKey) :
    key.publicKey.points = key.secrets.map Point.ofSecret := by
  cases key <;> rfl

theorem sign_of_signed (h : Signed digest key.secrets parts) :
    key.sign digest = .ok ⟨key.publicKey, parts.flatten⟩ := by
  rw [sign, h.signAll_eq]
  rfl

/-- The public half of a key finds the joined parts good. -/
theorem verify_of_signed (ne : key.secrets ≠ []) (h : Signed digest key.secrets parts) :
    key.publicKey.verify digest parts.flatten = .ok true := by
  have fits : key.publicKey.Fits parts.flatten := by
    have length := h.length_flatten
    have pos := List.length_pos_iff.2 ne
    refine ⟨?_, by rw [length, points_publicKey, List.length_map]⟩
    intro empty
    rw [empty, Point.signatureLength, List.length_nil] at length
    omega
  rw [PublicKey.verify_of_fits fits, PublicKey.verifiesParts, points_publicKey,
    Octets.pieces_flatten h.length_part (by decide), h.all_verifies]

end PrivateKey

end Lineage
