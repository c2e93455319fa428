import Lineage.Message
import Lineage.TimeProof
import Lineage.Proofs.Digest.Ascending
import Lineage.Proofs.Wire.Keys

/-!
# Records on the wire

Every record has a text, and its tree is decoded as the record when the keys in it are valid. An
account stands in one object with its identity: the members of the identity are kept until the
others are decoded, which needs them to nest few containers. What a message says comes after its
kind, so that it is decoded at once.
-/
namespace Lineage

namespace Identity

@[simp] theorem writable_toJson (i : Identity) : i.toJson.Writable := by
  simp [toJson, members]

theorem ofMembers_members {i : Identity} (h : i.key.Valid) :
    form.ofMembers i.members = .ok (some i.name, some i.extra, some i.key, ()) := by
  simp (disch := simp) only [form, members, Form.ofMembers_field, Form.ofMembers_empty,
    Decoder.string_string, PublicKey.decode_toJson h]
  rfl

theorem decode_toJson {i : Identity} (h : i.key.Valid) : decode i.toJson = .ok i := by
  rw [decode, toJson, Form.read, ofMembers_members h]
  rfl

theorem toJson_injective {i j : Identity} (h : i.toJson = j.toJson) : i = j := by
  simp only [toJson, members, Json.object.injEq, List.cons.injEq, Prod.mk.injEq, Json.string.injEq,
    Json.Content.plain.injEq, true_and, and_true] at h
  obtain ⟨name, extra, key⟩ := h
  cases i
  cases j
  rw [mk.injEq]
  exact ⟨name, extra, PublicKey.toJson_injective key⟩

end Identity

namespace Approval

@[simp] theorem writable_toJson (a : Approval) : a.toJson.Writable := by
  simp [toJson]

theorem decode_toJson (a : Approval) : decode a.toJson = .ok a := by
  simp (disch := simp) only [decode, toJson, Form.read, Form.ofMembers_field, Form.ofMembers_empty,
    Decoder.word256_toJson, Decoder.octets_toJson]
  rfl

end Approval

namespace Account

@[simp] theorem writable_toJson (a : Account) : a.toJson.Writable := by
  have parents : (Json.optional (fun p => .array [p.1.toJson, p.2.toJson]) a.parents).Writable :=
    Json.writable_optional (by simp) a.parents
  have birthMessage : (Json.optional Word256.toJson a.birthMessage).Writable :=
    Json.writable_optional Json.writable_word256 a.birthMessage
  simp [toJson, Identity.members, birthMembers, parents, birthMessage]

theorem optional_parents (p : Option (Approval × Approval)) :
    Decoder.optional (Decoder.pair Approval.decode)
      (.optional (fun p => .array [p.1.toJson, p.2.toJson]) p) = .ok p :=
  Decoder.optional_optional
    (fun p => Decoder.pair_array (Approval.decode_toJson p.1) (Approval.decode_toJson p.2))
    (fun _ => nofun) p

theorem optional_birthMessage (d : Option Digest) :
    Decoder.optional Decoder.word256 (.optional Word256.toJson d) = .ok d :=
  Decoder.optional_optional Decoder.word256_toJson (fun _ => nofun) d

/-- The members of the identity are kept, and the others are decoded. -/
theorem put_members (a : Account) :
    (a.identity.members ++ a.birthMembers).foldlM Draft.put ⟨none, none, []⟩ =
      .ok ⟨some a.parents, some a.birthMessage, a.identity.members⟩ := by
  have parents := optional_parents a.parents
  have birthMessage := optional_birthMessage a.birthMessage
  have keepable : a.identity.key.toJson.isKeepable (Json.depthLimit - 1) = true :=
    PublicKey.Wire.isKeepable_toJson a.identity.key.toWire 124
  simp only [Identity.members, birthMembers, List.cons_append, List.nil_append, List.foldlM_cons,
    List.foldlM_nil, Draft.put, String.reduceEq, imp_self, Json.isKeepable, bne_iff_ne, ne_eq,
    reduceCtorEq, not_false_eq_true, if_true, keepable, parents, birthMessage]
  rfl

theorem decode_toJson {a : Account} (h : a.identity.key.Valid) : decode a.toJson = .ok a := by
  rw [toJson, decode, put_members]
  simp only [Decoder.ok_bind, Identity.ofMembers_members h]
  rfl

theorem toJson_injective {a b : Account} (h : a.toJson = b.toJson) : a = b := by
  simp only [toJson, Identity.members, birthMembers, List.cons_append, List.nil_append,
    Json.object.injEq, List.cons.injEq, Prod.mk.injEq, true_and, and_true] at h
  obtain ⟨name, extra, key, parents, birthMessage⟩ := h
  have identity : a.identity = b.identity := by
    apply Identity.toJson_injective
    rw [Identity.toJson, Identity.members, name, extra, key]
    rfl
  have hparents : a.parents = b.parents := Decoder.injective_of_decodes optional_parents parents
  have hbirth : a.birthMessage = b.birthMessage :=
    Decoder.injective_of_decodes optional_birthMessage birthMessage
  cases a
  cases b
  rw [mk.injEq]
  exact ⟨identity, hparents, hbirth⟩

end Account

namespace Certificate

@[simp] theorem writable_toJson (c : Certificate) : c.toJson.Writable := by
  simp [toJson]

theorem list_approvals (l : List Approval) :
    Decoder.list Approval.decode (.array (l.map Approval.toJson)) = .ok l :=
  Decoder.list_map fun a _ => Approval.decode_toJson a

theorem decode_toJson {c : Certificate} (h : c.identity.key.Valid) : decode c.toJson = .ok c := by
  simp (disch := simp) only [decode, toJson, Form.read, Form.ofMembers_field, Form.ofMembers_empty,
    Identity.decode_toJson h, list_approvals]
  rfl

theorem toJson_injective {c d : Certificate} (h : c.toJson = d.toJson) : c = d := by
  simp only [toJson, Json.object.injEq, List.cons.injEq, Prod.mk.injEq, true_and, and_true] at h
  obtain ⟨identity, approvals⟩ := h
  cases c
  cases d
  rw [mk.injEq]
  exact ⟨Identity.toJson_injective identity, Decoder.injective_of_decodes list_approvals approvals⟩

end Certificate

namespace Message

namespace Reference

@[simp] theorem writable_toJson (r : Reference) : r.toJson.Writable := by
  simp [toJson]

theorem decode_toJson (r : Reference) : decode r.toJson = .ok r := by
  simp (disch := simp) only [decode, toJson, Form.read, Form.ofMembers_field, Form.ofMembers_empty,
    Decoder.word256_toJson]
  rfl

end Reference

namespace Kind

@[simp] theorem writable_toJson (k : Kind) : k.toJson.Writable := .string _

theorem decode_toJson (k : Kind) : decode k.toJson = .ok k := by
  cases k <;> rfl

end Kind

namespace Body

/-- Whether the key in a birth is valid. A text has no key. -/
def ValidKey : Body → Prop
  | .text _ => True
  | .birth c => c.identity.key.Valid

@[simp] theorem writable_toJson (b : Body) : b.toJson.Writable := by
  cases b <;> simp [toJson, content]

theorem decodeContent_content {b : Body} (h : b.ValidKey) :
    decodeContent b.kind b.content = .ok b := by
  cases b with
  | text octets =>
    simp only [decodeContent, kind, content, Decoder.octets_toJson, Decoder.ok_bind]
    rfl
  | birth c =>
    simp only [decodeContent, kind, content, Certificate.decode_toJson h, Decoder.ok_bind]
    rfl

/-- The kind comes first, so that the content is decoded where it is met. -/
theorem decode_toJson {b : Body} (h : b.ValidKey) (depth : Nat) :
    decode depth b.toJson = .ok b := by
  simp only [decode, toJson, ofMembers, if_true, Kind.decode_toJson, Decoder.ok_bind, findContent,
    decodeContent_content h]
  rfl

/-- The kind tells a text from a birth, also where one could pass for the other. -/
theorem toJson_injective {b c : Body} (h : b.toJson = c.toJson) : b = c := by
  simp only [toJson, Json.object.injEq, List.cons.injEq, Prod.mk.injEq, true_and, and_true] at h
  obtain ⟨hkind, hcontent⟩ := h
  have kind : b.kind = c.kind := Decoder.injective_of_decodes Kind.decode_toJson hkind
  cases b with
  | text octets =>
    cases c with
    | text octets' =>
      exact congrArg text (Decoder.injective_of_decodes Decoder.octets_toJson hcontent)
    | birth d => cases kind
  | birth c' =>
    cases c with
    | text octets => cases kind
    | birth d => exact congrArg birth (Certificate.toJson_injective hcontent)

end Body

theorem writable_toJson (m : Message) : m.toJson.Writable := by
  simp [toJson]

theorem writable_signedJson (m : Message) : m.signedJson.Writable := by
  simp [signedJson]

theorem list_references (l : List Reference) :
    Decoder.list Reference.decode (.array (l.map Reference.toJson)) = .ok l :=
  Decoder.list_map fun r _ => Reference.decode_toJson r

theorem decode_toJson {m : Message} (h : m.body.ValidKey) : decode m.toJson = .ok m := by
  simp (disch := simp) only [decode, toJson, Form.read, Form.ofMembers_field, Form.ofMembers_empty,
    Decoder.word256_toJson, Body.decode_toJson h, list_references, Decoder.octets_toJson]
  rfl

/-- What is signed tells the sender, what is said and what is referred to. -/
theorem signedJson_injective {m n : Message} (h : m.signedJson = n.signedJson) :
    m.sender = n.sender ∧ m.body = n.body ∧ m.references = n.references := by
  simp only [signedJson, Json.object.injEq, List.cons.injEq, Prod.mk.injEq, true_and,
    and_true] at h
  obtain ⟨references, sender, body⟩ := h
  exact ⟨Decoder.injective_of_decodes Decoder.word256_toJson sender, Body.toJson_injective body,
    Decoder.injective_of_decodes list_references references⟩

end Message

theorem DigestSet.ofList_toList (s : DigestSet) : DigestSet.ofList s.toList = s := by
  apply DigestSet.ext_mem
  intro d
  rw [DigestSet.mem_ofList, DigestSet.mem_def]

theorem DigestSet.decode_toJson (s : DigestSet) : DigestSet.decode s.toJson = .ok s := by
  have members : Decoder.list Decoder.word256 (.array (s.toList.map Word256.toJson)) =
      .ok s.toList :=
    Decoder.list_map fun w _ => Decoder.word256_toJson w
  simp only [decode, toJson, members]
  exact congrArg Except.ok (ofList_toList s)

namespace Snapshot

theorem writable_toJson (s : Snapshot) : s.toJson.Writable := by
  simp [toJson, DigestSet.toJson]

theorem decode_toJson (s : Snapshot) : decode s.toJson = .ok s := by
  simp (disch := simp) only [decode, toJson, Form.read, Form.ofMembers_field, Form.ofMembers_empty,
    DigestSet.decode_toJson]
  rfl

end Snapshot

end Lineage
