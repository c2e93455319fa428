import Lineage.Proofs.Octets.Hex
import Lineage.Proofs.Outcomes
import Mathlib.Data.List.Induction

/-!
# Which texts spell words

A text spells a word if it consists of 64 hexadecimal digits of either case, and the word is written
with the same digits in lower case. Any other text is refused for an odd number of octets, or else
for a wrong number of them, or else for the first one that is no digit. Digits are looked for among
octets, but this comes to the same as among characters: beyond ASCII no octet of a character is a
digit.
-/
namespace Lineage

namespace Hex

/-- A hexadecimal digit of either case. -/
def IsDigit (c : Char) : Prop := '0' ≤ c ∧ c ≤ '9' ∨ 'a' ≤ c ∧ c ≤ 'f' ∨ 'A' ≤ c ∧ c ≤ 'F'

instance (c : Char) : Decidable (IsDigit c) := by unfold IsDigit; infer_instance

/-- A text of 64 digits. -/
structure IsWordText (s : String) : Prop where
  length : s.toList.length = 64
  digits : ∀ c ∈ s.toList, IsDigit c

/-- A word that a text spells: it is written with the digits of the text in lower case. -/
structure Spells (s : String) (w : Word256) : Prop where
  isWordText : IsWordText s
  hex_eq : w.hex = s.toLower

/-- What is wrong first with a text that spells no word. -/
inductive WordFault (s : String) : Error → Prop where
  | odd (length : (Octets.ofText s.toList).length % 2 = 1) : WordFault s .oddLength
  | length (even : (Octets.ofText s.toList).length % 2 = 0)
      (ne : (Octets.ofText s.toList).length ≠ 64) : WordFault s .wrongLength
  | digit (length : (Octets.ofText s.toList).length = 64) {before : Octets} {x : UInt8}
      {after : Octets} (split : Octets.ofText s.toList = before ++ x :: after)
      (digits : ∀ y ∈ before, digit? y ≠ none) (bad : digit? x = none) :
      WordFault s (.badDigit x before.length)

theorem lt_of_digit? {x : UInt8} {d : Nat} (h : digit? x = some d) : d < 16 := by
  rw [digit?] at h
  split at h
  · cases h; omega
  · split at h
    · cases h; omega
    · split at h
      · cases h; omega
      · cases h

theorem digit?_of_le {x : UInt8} (h : 0x80 ≤ x.toNat) : digit? x = none := by
  rw [digit?, if_neg (by omega), if_neg (by omega), if_neg (by omega)]

/-- Among the ASCII characters the digits are read by their octets, and keep their value in lower
case. -/
theorem map_digit? {c : Char} (ascii : c.toNat < 0x80) :
    (digit? (UInt8.ofNat c.toNat)).map Nat.digitChar =
      if IsDigit c then some c.toLower else none := by
  have table : ∀ n < 0x80, (digit? (UInt8.ofNat n)).map Nat.digitChar =
      if IsDigit (Char.ofNat n) then some (Char.ofNat n).toLower else none := by
    decide
  have row := table c.toNat ascii
  rwa [Char.ofNat_toNat] at row

variable {c : Char} {cs : List Char}

theorem IsDigit.exists_octet (h : IsDigit c) : ∃ x d, String.utf8EncodeChar c = [x] ∧
    digit? x = some d ∧ Nat.digitChar d = c.toLower := by
  have ascii : c.toNat < 0x80 := by
    simp [IsDigit, Char.le_def, UInt32.le_iff_toNat_le] at h
    omega
  have value := map_digit? ascii
  rw [if_pos h, Option.map_eq_some_iff] at value
  obtain ⟨d, hd, lower⟩ := value
  exact ⟨_, d, Octets.utf8EncodeChar_of_lt ascii, hd, lower⟩

theorem isDigit_of_octets (h : ∀ x ∈ String.utf8EncodeChar c, digit? x ≠ none) : IsDigit c := by
  by_cases ascii : c.toNat < 0x80
  · rw [Octets.utf8EncodeChar_of_lt ascii] at h
    have value := map_digit? ascii
    by_contra none
    rw [if_neg none, Option.map_eq_none_iff] at value
    exact h _ List.mem_cons_self value
  · obtain ⟨x, hx⟩ := List.exists_mem_of_ne_nil _ (String.utf8EncodeChar_ne_nil (c := c))
    have high := Octets.le_of_mem_utf8EncodeChar (Nat.le_of_not_lt ascii) hx
    exact absurd (digit?_of_le high) (h x hx)

theorem length_ofText (digits : ∀ c ∈ cs, IsDigit c) : (Octets.ofText cs).length = cs.length := by
  induction cs with
  | nil => rfl
  | cons c cs ih =>
    obtain ⟨x, _, octet, -⟩ := (digits c List.mem_cons_self).exists_octet
    have rest := ih fun d hd => digits d (List.mem_cons_of_mem c hd)
    rw [Octets.ofText] at rest ⊢
    rw [List.flatMap_cons, octet, List.length_append, rest, List.length_singleton,
      List.length_cons, Nat.add_comm]

theorem length_encode (b : Octets) : (encode b).length = 2 * b.length := by
  induction b with
  | nil => rfl
  | cons x b ih =>
    rw [encode_cons, List.length_append, ih, List.length_cons]
    simp only [encodeOctet, List.length_cons, List.length_nil]
    omega

theorem encodeOctet_pair {high low : Nat} (hhigh : high < 16) (hlow : low < 16) :
    encodeOctet (UInt8.ofNat (16 * high + low)) = [Nat.digitChar high, Nat.digitChar low] := by
  have value : (UInt8.ofNat (16 * high + low)).toNat = 16 * high + low := by
    rw [UInt8.toNat_ofNat']
    omega
  have first : (16 * high + low) / 16 = high := by omega
  have second : (16 * high + low) % 16 = low := by omega
  rw [encodeOctet, value, first, second]

/-- An even number of digits is read, and what is read is written in lower case. -/
theorem exists_decodePairs (digits : ∀ c ∈ cs, IsDigit c) (even : cs.length % 2 = 0)
    (index : Nat) :
    ∃ b, decodePairs index (Octets.ofText cs) = .ok b ∧ encode b = cs.map Char.toLower := by
  induction cs using List.twoStepInduction generalizing index with
  | nil => exact ⟨[], rfl, rfl⟩
  | singleton c => cases even
  | cons_cons c d cs ih _ =>
    obtain ⟨x, high, octet_x, hx, lower_c⟩ := (digits c (by simp)).exists_octet
    obtain ⟨y, low, octet_y, hy, lower_d⟩ := (digits d (by simp)).exists_octet
    simp only [List.length_cons] at even
    obtain ⟨b, hb, lower⟩ := ih (fun e he => digits e (by simp [he])) (by omega) (index + 2)
    refine ⟨UInt8.ofNat (16 * high + low) :: b, ?read, ?write⟩
    case read =>
      have octets : Octets.ofText (c :: d :: cs) = x :: y :: Octets.ofText cs := by
        simp only [Octets.ofText, List.flatMap_cons, octet_x, octet_y, List.singleton_append]
      simp only [octets, decodePairs, digit, hx, hy, hb]
      rfl
    case write =>
      rw [encode_cons, encodeOctet_pair (lt_of_digit? hx) (lt_of_digit? hy), lower, lower_c,
        lower_d]
      rfl

/-- The first octet that is no digit is reported with its place. -/
theorem decodePairs_of_bad {before after : Octets} {x : UInt8}
    (digits : ∀ y ∈ before, digit? y ≠ none) (bad : digit? x = none)
    (even : (before ++ x :: after).length % 2 = 0) (index : Nat) :
    decodePairs index (before ++ x :: after) = .error (.badDigit x (index + before.length)) := by
  induction before using List.twoStepInduction generalizing index with
  | nil =>
    cases after with
    | nil => cases even
    | cons y after =>
      simp only [List.nil_append, decodePairs, digit, bad]
      rfl
  | singleton y =>
    obtain ⟨high, hy⟩ := Option.ne_none_iff_exists'.1 (digits y List.mem_cons_self)
    simp only [List.singleton_append, decodePairs, digit, hy, bad]
    rfl
  | cons_cons y z before ih _ =>
    obtain ⟨high, hy⟩ := Option.ne_none_iff_exists'.1 (digits y (by simp))
    obtain ⟨low, hz⟩ := Option.ne_none_iff_exists'.1 (digits z (by simp))
    simp only [List.cons_append, List.length_cons] at even
    have rest := ih (fun u hu => digits u (by simp [hu])) (by omega) (index + 2)
    simp only [List.cons_append, decodePairs, digit, hy, hz, rest, List.length_cons]
    rw [Nat.add_assoc, Nat.add_comm 2]
    rfl

variable {s : String} {e : Error}

theorem isWordText_or_fault (s : String) : IsWordText s ∨ ∃ e, WordFault s e := by
  by_cases odd : (Octets.ofText s.toList).length % 2 = 1
  · exact .inr ⟨_, .odd odd⟩
  by_cases length : (Octets.ofText s.toList).length = 64
  · cases found : (Octets.ofText s.toList).find? (fun x => (digit? x).isNone) with
    | none =>
      have digits : ∀ c ∈ s.toList, IsDigit c := by
        intro c hc
        apply isDigit_of_octets
        intro x hx none
        have good := List.find?_eq_none.1 found x (List.mem_flatMap.2 ⟨c, hc, hx⟩)
        rw [none] at good
        exact good rfl
      rw [length_ofText digits] at length
      exact .inl ⟨length, digits⟩
    | some x =>
      obtain ⟨bad, before, after, split, digits⟩ := List.find?_eq_some_iff_append.1 found
      refine .inr ⟨_, .digit length split (fun y hy none => ?_) (Option.isNone_iff_eq_none.1 bad)⟩
      have good := digits y hy
      rw [none] at good
      cases good
  · exact .inr ⟨_, .length (by omega) length⟩

theorem WordFault.decodeWord_eq (h : WordFault s e) : decodeWord s = .error e := by
  rw [decodeWord]
  cases h with
  | odd length => exact if_pos length
  | length even ne => rw [if_neg (by omega), if_pos ne]
  | @digit length before x after split digits bad =>
    rw [split] at length
    have even : (before ++ x :: after).length % 2 = 0 := by omega
    have read := decodePairs_of_bad digits bad even 0
    simp only [split, length, read, Nat.zero_add]
    rfl

theorem IsWordText.exists_word (h : IsWordText s) :
    ∃ w, decodeWord s = .ok w ∧ w.hex = s.toLower := by
  have length : (Octets.ofText s.toList).length = 64 := (length_ofText h.digits).trans h.length
  obtain ⟨b, read, lower⟩ := exists_decodePairs h.digits (by rw [h.length]) 0
  have width : b.length = 32 := by
    have total := congrArg List.length lower
    rw [length_encode, List.length_map, h.length] at total
    omega
  refine ⟨⟨b, width⟩, ?read, ?write⟩
  case read =>
    simp only [decodeWord, length, read]
    exact dif_pos width
  case write =>
    rw [Word256.hex, text, lower]
    change String.ofList (s.toList.map Char.toLower) = s.map Char.toLower
    rw [← String.toList_map, String.ofList_toList]

/-- Every text spells a word or is at fault. -/
theorem spells_or_fault (s : String) : (∃ w, Spells s w) ∨ ∃ e, WordFault s e := by
  rcases isWordText_or_fault s with word | fault
  · obtain ⟨w, -, lower⟩ := word.exists_word
    exact .inl ⟨w, word, lower⟩
  · exact .inr fault

theorem Spells.decodeWord_eq {w : Word256} (h : Spells s w) : decodeWord s = .ok w := by
  obtain ⟨v, hv, lower⟩ := h.isWordText.exists_word
  rwa [Word256.hex_injective (h.hex_eq.trans lower.symm)]

theorem decodeWord_exact (s : String) :
    (∀ w, decodeWord s = .ok w ↔ Spells s w) ∧ ∀ e, decodeWord s = .error e ↔ WordFault s e :=
  eq_iff_of_cover (spells_or_fault s) (fun _ h => h.decodeWord_eq) fun _ h => h.decodeWord_eq

end Hex

end Lineage
