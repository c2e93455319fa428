import Lineage.Wire.Decoder
import Lineage.Proofs.Json.Reading
import Lineage.Proofs.Octets.Hex

/-!
# Laws of decoders and forms

What each encoder writes has a text, and the decoder of the same kind reads it. For a record this is
said one field at a time: when a field comes first and no later member repeats its name, its value
is decoded and the other members go to the other fields.
-/
namespace Lineage

namespace Json

@[simp] theorem writable_string (s : String) : Writable (.string (.plain s)) := .string s

@[simp] theorem writable_array {items : List Json} :
    Writable (.array items) ↔ ∀ v ∈ items, Writable v := by
  constructor
  · rintro ⟨values⟩
    assumption
  · exact .array

/-- An object has a text when its names are strings and its values have texts. -/
@[simp] theorem writable_object {members : List (Content × Json)} :
    Writable (.object members) ↔ ∀ e ∈ members, (∃ s, e.1 = .plain s) ∧ Writable e.2 := by
  constructor
  · intro h e he
    cases h with
    | object names values => exact ⟨names e he, values e he⟩
  · intro h
    exact .object (fun e he => (h e he).1) fun e he => (h e he).2

@[simp] theorem writable_octets (b : Octets) : Writable b.toJson := .string _

@[simp] theorem writable_word256 (w : Word256) : Writable w.toJson := .string _

theorem writable_optional {α : Type} {encode : α → Json} (h : ∀ a, Writable (encode a))
    (a : Option α) : Writable (optional encode a) := by
  cases a with
  | none => exact .null
  | some a => exact h a

end Json

namespace Decoder

/-- What follows a step that gave a value. -/
@[simp] theorem ok_bind {ε α β : Type} (a : α) (f : α → Except ε β) :
    (Except.ok a >>= f) = f a := rfl

variable {α : Type} {decode : Decoder α} {encode : α → Json}

@[simp] theorem string_string (s : String) : string (.string (.plain s)) = .ok s := rfl

@[simp] theorem octets_toJson (b : Octets) : octets b.toJson = .ok b := by
  simp only [octets, Octets.toJson, string_string, ok_bind, Hex.decode_text]

@[simp] theorem word256_toJson (w : Word256) : word256 w.toJson = .ok w := by
  simp only [word256, Word256.toJson, string_string, ok_bind, Hex.decodeWord_hex]

theorem items_map {l : List α} (h : ∀ a ∈ l, decode (encode a) = .ok a) :
    items decode (l.map encode) = .ok l := by
  induction l with
  | nil => rfl
  | cons a l ih =>
    have hl := ih fun b hb => h b (List.mem_cons_of_mem a hb)
    rw [List.map_cons, items, h a List.mem_cons_self, hl]
    rfl

theorem list_map {l : List α} (h : ∀ a ∈ l, decode (encode a) = .ok a) :
    list decode (.array (l.map encode)) = .ok l :=
  items_map h

theorem pair_array {a b : α} (ha : decode (encode a) = .ok a) (hb : decode (encode b) = .ok b) :
    pair decode (.array [encode a, encode b]) = .ok (a, b) := by
  rw [pair, ha, hb]
  rfl

/-- An optional value that is given must not be written as nothing. -/
theorem optional_optional (h : ∀ a, decode (encode a) = .ok a) (hnull : ∀ a, encode a ≠ .null)
    (a : Option α) : optional decode (Json.optional encode a) = .ok a := by
  cases a with
  | none => rfl
  | some a =>
    rw [Json.optional, optional.eq_2 _ _ (hnull a), h a]
    rfl

/-- Values that can be told from their trees have different trees. -/
theorem injective_of_decodes (h : ∀ a, decode (encode a) = .ok a) {a b : α}
    (heq : encode a = encode b) : a = b := by
  have ha := h a
  rw [heq, h b] at ha
  exact (Except.ok.inj ha).symm

/-- A text is decoded as what the tree that it was written for is decoded as. -/
theorem ofText_eq_ok {j : Json} {a : α} (writable : j.Writable) (decodes : decode j = .ok a) :
    ofText decode j.text = .ok a := by
  simp only [ofText, Json.Document.ofText_text writable, decodes, ok_bind]
  rfl

end Decoder

namespace Form

variable {α σ : Type} {name : String} {decode : Decoder α} {rest : Form σ}
  {members : List (Json.Content × Json)}

/-- A member of another name goes to the other fields. -/
theorem putMember_field {e : Json.Content × Json} (he : e.1 ≠ .plain name) (x : Option α) (s : σ) :
    (field name decode rest).putMember (x, s) e = (rest.putMember s e).map fun s => (x, s) := by
  obtain ⟨n, v⟩ := e
  cases n with
  | unpaired => rfl
  | plain n =>
    have hn : name ≠ n := by
      rintro rfl
      exact he rfl
    simp only [putMember, field, List.find?_cons, hn, decide_false, List.find?_map,
      Function.comp_def]
    cases rest.fields.find? (·.name = n) with
    | none =>
      rw [Option.map_none]
      cases Decoder.skip v <;> rfl
    | some f =>
      rw [Option.map_some]
      cases f.put v s <;> rfl

theorem foldlM_field (fresh : ∀ e ∈ members, e.1 ≠ .plain name) (x : Option α) (s : σ) :
    members.foldlM (field name decode rest).putMember (x, s) =
      (members.foldlM rest.putMember s).map fun s => (x, s) := by
  induction members generalizing s with
  | nil => rfl
  | cons e members ih =>
    have hrest := ih fun f hf => fresh f (List.mem_cons_of_mem e hf)
    rw [List.foldlM_cons, List.foldlM_cons, putMember_field (fresh e List.mem_cons_self)]
    cases rest.putMember s e with
    | error _ => rfl
    | ok t => exact hrest t

/-- A field that comes first is decoded first, and the other members go to the other fields. -/
theorem ofMembers_field (j : Json) (fresh : ∀ e ∈ members, e.1 ≠ .plain name) :
    (field name decode rest).ofMembers ((.plain name, j) :: members) =
      decode j >>= fun a => (rest.ofMembers members).map fun s => (some a, s) := by
  have hblank : (field name decode rest).blank = (none, rest.blank) := rfl
  have hput : (field name decode rest).putMember (none, rest.blank) (.plain name, j) =
      decode j >>= fun a => pure (some a, rest.blank) := by
    simp only [putMember, field, List.find?_cons, decide_true]
  rw [ofMembers, List.foldlM_cons, hblank, hput]
  cases decode j with
  | error _ => rfl
  | ok a => exact foldlM_field fresh (some a) rest.blank

@[simp] theorem ofMembers_empty : empty.ofMembers [] = .ok () := rfl

end Form

end Lineage
