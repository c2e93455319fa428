import Lineage.Json.Printer
import Lineage.Proofs.Octets.Text

/-!
# The octets of a JSON text

What is written as octets is the UTF-8 form of what is written as characters. A character that is
escaped is one octet below 128; the octets of all characters from 128 on are 128 at least, and
stay as they are.
-/
namespace Lineage.Json

open Lineage.Octets (utf8EncodeChar_of_lt le_of_mem_utf8EncodeChar toList_toByteArray)

/-- Nothing but the quote, the backslash and the characters below the space is escaped. -/
theorem escape_of_ne {c : Char} (h : ¬ (c.toNat = 0x22 ∨ c.toNat = 0x5c ∨ c.toNat < 0x20)) :
    escape c = [c] := by
  rw [not_or, not_or] at h
  have hne : ∀ d : Char, d.toNat = 0x22 ∨ d.toNat = 0x5c ∨ d.toNat < 0x20 → c ≠ d := by
    rintro d hd rfl
    exact not_or.2 ⟨h.1, not_or.2 h.2⟩ hd
  rw [escape, if_neg (hne _ (by decide)), if_neg (hne _ (by decide)), if_neg (hne _ (by decide)),
    if_neg (hne _ (by decide)), if_neg (hne _ (by decide)), if_neg (hne _ (by decide)),
    if_neg (hne _ (by decide)), if_neg h.2.2]

theorem flatMap_escapeOctet (c : Char) :
    (String.utf8EncodeChar c).flatMap escapeOctet = Octets.ofText (escape c) := by
  by_cases h : c.toNat < 0x80
  · have hx : (UInt8.ofNat c.toNat).toNat = c.toNat := by
      rw [UInt8.toNat_ofNat']
      omega
    rw [utf8EncodeChar_of_lt h, List.flatMap_singleton, escapeOctet, hx, Char.ofNat_toNat]
    split
    · rfl
    · next hne =>
      rw [escape_of_ne hne, Octets.ofText, List.flatMap_singleton, utf8EncodeChar_of_lt h]
  · have hle : 0x80 ≤ c.toNat := Nat.le_of_not_lt h
    have hkeep : ∀ x ∈ String.utf8EncodeChar c, escapeOctet x = [x] := by
      intro x hx
      have := le_of_mem_utf8EncodeChar hle hx
      rw [escapeOctet, if_neg (by omega)]
    rw [escape_of_ne (by omega), Octets.ofText, List.flatMap_singleton, List.flatMap_def,
      List.map_congr_left hkeep, ← List.flatMap_def, List.flatMap_singleton']

theorem stringOctets_eq (s : String) : stringOctets s = Octets.ofText (renderString s) := by
  have hbody : (Octets.ofText s.toList).flatMap escapeOctet =
      Octets.ofText (s.toList.flatMap escape) := by
    rw [Octets.ofText, Octets.ofText, List.flatMap_assoc, List.flatMap_assoc]
    congr 1
    funext c
    exact flatMap_escapeOctet c
  rw [stringOctets, toList_toByteArray, hbody, renderString, ← Octets.ofText_append,
    ← Octets.ofText_append]
  rfl

theorem contentOctets_eq (t : Content) : contentOctets t = Octets.ofText (renderContent t) := by
  cases t with
  | plain s => exact stringOctets_eq s
  | unpaired => rfl

mutual

theorem octets_eq (j : Json) : j.octets = Octets.ofText j.render := by
  cases j with
  | null => rfl
  | bool b => cases b <;> rfl
  | number n => rw [octets, render]
  | decimal digits exponent => rw [octets, render, Octets.ofText_nil]
  | string t => rw [octets, render, contentOctets_eq]
  | array items => rw [octets, render, itemsOctets_eq items, ← Octets.ofText_append]; rfl
  | object members => rw [octets, render, membersOctets_eq members, ← Octets.ofText_append]; rfl
  | cut => rw [octets, render, Octets.ofText_nil]

theorem itemsOctets_eq (items : List Json) :
    itemsOctets items = Octets.ofText (renderItems items) := by
  match items with
  | [] => rfl
  | [v] => rw [itemsOctets, renderItems, octets_eq v, Octets.ofText_append]
  | v :: w :: rest =>
    rw [itemsOctets, renderItems, octets_eq v, itemsOctets_eq (w :: rest)]
    · simp [Octets.ofText]
    · simp
    · simp

theorem membersOctets_eq (members : List (Content × Json)) :
    membersOctets members = Octets.ofText (renderMembers members) := by
  match members with
  | [] => rfl
  | [(k, v)] =>
    rw [membersOctets, renderMembers, octets_eq v, contentOctets_eq k]
    simp [Octets.ofText]
  | (k, v) :: e :: rest =>
    rw [membersOctets, renderMembers, octets_eq v, contentOctets_eq k,
      membersOctets_eq (e :: rest)]
    · simp [Octets.ofText]
    · simp
    · simp

end

end Lineage.Json
