import Lineage.Octets

/-!
# Text as octets

A character below 128 is one octet of the same number; the octets of all characters from 128 on
are 128 at least. No two texts have the same octets, and no character begins with the octets of
another one. So of two texts that begin one string of octets, one begins the other.
-/
namespace Lineage.Octets

theorem utf8EncodeChar_of_lt {c : Char} (h : c.toNat < 0x80) :
    String.utf8EncodeChar c = [UInt8.ofNat c.toNat] := by
  have hv : c.val.toNat ≤ 0x7f := Nat.le_of_lt_succ h
  rw [String.utf8EncodeChar]
  simp only [if_pos hv]
  rfl

theorem le_of_mem_utf8EncodeChar {c : Char} (h : 0x80 ≤ c.toNat) {x : UInt8}
    (hx : x ∈ String.utf8EncodeChar c) : 0x80 ≤ x.toNat := by
  have hv : ¬ c.val.toNat ≤ 0x7f := Nat.not_le_of_lt h
  rw [String.utf8EncodeChar] at hx
  simp only [if_neg hv] at hx
  split at hx
  · simp only [List.mem_cons, List.not_mem_nil, or_false] at hx
    rcases hx with rfl | rfl <;> simp only [UInt8.toNat_ofNat'] <;> omega
  · split at hx
    · simp only [List.mem_cons, List.not_mem_nil, or_false] at hx
      rcases hx with rfl | rfl | rfl <;> simp only [UInt8.toNat_ofNat'] <;> omega
    · simp only [List.mem_cons, List.not_mem_nil, or_false] at hx
      rcases hx with rfl | rfl | rfl | rfl <;> simp only [UInt8.toNat_ofNat'] <;> omega

/-- The octets of a string are those of its characters. -/
theorem toList_toByteArray (s : String) : s.toByteArray.data.toList = ofText s.toList := by
  rw [← String.utf8Encode_toList, List.utf8Encode, List.toList_data_toByteArray, ofText]

theorem ofText_injective {s t : List Char} (h : ofText s = ofText t) : s = t := by
  have utf8Encode_eq : s.utf8Encode = t.utf8Encode := congrArg List.toByteArray h
  rw [← String.toByteArray_ofList, ← String.toByteArray_ofList,
    String.toByteArray_inj] at utf8Encode_eq
  rw [← String.toList_ofList (l := s), utf8Encode_eq, String.toList_ofList]

theorem utf8EncodeChar_append_injective {c d : Char} {b b' : Octets}
    (h : String.utf8EncodeChar c ++ b = String.utf8EncodeChar d ++ b') : c = d ∧ b = b' := by
  have decoded (c : Char) (b : Octets) :
      (String.utf8EncodeChar c ++ b).toByteArray.utf8DecodeChar? 0 = some c := by
    rw [List.toByteArray_append]
    exact ByteArray.utf8DecodeChar?_utf8EncodeChar_append
  have same := decoded c b
  rw [h, decoded d b', Option.some.injEq] at same
  subst same
  exact ⟨rfl, List.append_cancel_left h⟩

/-- Of two texts at the beginning of the same octets, one is at the beginning of the other. -/
theorem prefix_or_prefix_of_ofText_append {s t : List Char} {b b' : Octets}
    (h : ofText s ++ b = ofText t ++ b') : s <+: t ∨ t <+: s := by
  induction s generalizing t with
  | nil => exact .inl List.nil_prefix
  | cons c s ih =>
    cases t with
    | nil => exact .inr List.nil_prefix
    | cons d t =>
      simp only [ofText, List.flatMap_cons, List.append_assoc] at h
      obtain ⟨rfl, rest⟩ := utf8EncodeChar_append_injective h
      simp only [List.cons_prefix_cons, true_and]
      exact ih rest

end Lineage.Octets
