import Lineage.Proofs.Universe.Reachable

/-!
# Stored messages are authentic and causally closed

What has been checked when a message came holds of it ever after: its id is that of its content,
its sender is an account that has signed it, and what it refers to came before it. An account is
admitted after its birth message, so that came before all that the account has sent. The id leaves
out the signature, and no id is stored twice: what a message says is stored once.
-/
namespace Lineage

/-- Messages that say the same have one id. -/
theorem Message.contentId_congr {m n : Message} (sender : m.sender = n.sender)
    (body : m.body = n.body) (references : m.references = n.references) :
    m.contentId = n.contentId := by
  have hjson : m.signedJson = n.signedJson := by
    rw [signedJson, signedJson, sender, body, references]
  rw [contentId, contentId, canonical, canonical, hjson]

namespace Universe

variable {u u' : Universe}

/-- A stored message is what it claims to be, and came after all that it depends on. -/
structure Authentic (u : Universe) (v : Vertex Message) : Prop where
  id_eq : v.value.id = v.id
  contentId_eq : v.value.contentId = v.id
  signed : ∃ a, u.population.account? v.value.sender = some a ∧
    v.value.verifySignature a.identity.key = .ok true ∧
    ∀ b, a.birthMessage = some b → u.messages.Precedes b v.id
  references : ∀ r ∈ v.value.references, u.messages.Precedes r.message v.id ∧
    ∃ target, u.messages.value? r.message = some target ∧ target.sender = r.sender
  parents : ∀ d, d ∈ v.parents ↔ ∃ r ∈ v.value.references, r.message = d

/-- A message that has just been stored. -/
theorem Recorded.authentic {m : Message} (s : Recorded u m u') (hu : Linked u) :
    Authentic u' ⟨m.id, m, .ofList (m.references.map (·.message))⟩ := by
  refine ⟨rfl, s.contentId_eq, ?_, ?_, ?_⟩
  · obtain ⟨a, ha, hsigned⟩ := s.signed
    refine ⟨a, s.population ▸ ha, hsigned, ?_⟩
    intro b hb
    exact .of_insert s.messages (hu.birthMessage m.sender a b ha hb)
  · intro r hr
    obtain ⟨target, ht, hsender⟩ := s.references r hr
    exact ⟨.of_insert s.messages (Dag.mem_iff_value?.2 ⟨target, ht⟩), target,
      Dag.value?_mono s.messages ht, hsender⟩
  · intro d
    rw [DigestSet.mem_ofList, List.mem_map]

/-- What is authentic stays so when the graph of messages grows and no account is lost. -/
theorem Authentic.mono {v : Vertex Message} (h : Authentic u v)
    (accounts : ∀ d a, u.population.account? d = some a → u'.population.account? d = some a)
    (values : ∀ d m, u.messages.value? d = some m → u'.messages.value? d = some m)
    (order : ∀ a b, u.messages.Precedes a b → u'.messages.Precedes a b) : Authentic u' v := by
  refine ⟨h.id_eq, h.contentId_eq, ?_, ?_, h.parents⟩
  · obtain ⟨a, ha, hsigned, hborn⟩ := h.signed
    exact ⟨a, accounts _ a ha, hsigned, fun b hb => order b v.id (hborn b hb)⟩
  · intro r hr
    obtain ⟨hbefore, target, ht, hsender⟩ := h.references r hr
    exact ⟨order _ _ hbefore, target, values _ target ht, hsender⟩

theorem Evolved.authentic (h : Evolved u) : ∀ v ∈ u.messages.newestFirst, Authentic u v := by
  induction h with
  | seed _ => intro v hv; cases hv
  | step h s ih =>
    intro v hv
    cases s with
    | record s =>
      rw [Dag.newestFirst_insert s.messages] at hv
      rcases List.mem_cons.1 hv with rfl | hv
      · exact s.authentic h.linked
      · refine (ih v hv).mono ?_ (fun _ _ => Dag.value?_mono s.messages)
          (fun _ _ => Dag.Precedes.insert s.messages)
        intro d a ha
        exact s.population ▸ ha
    | birth s =>
      rw [s.messages] at hv
      refine (ih v hv).mono ?_ (by rw [s.messages]; exact fun _ _ => id)
        (by rw [s.messages]; exact fun _ _ => id)
      intro d a ha
      rw [s.population.account?_of_mem (Population.mem_iff_account?.2 ⟨a, ha⟩), ha]
    | anchor s =>
      rw [s.messages] at hv
      exact (ih v hv).mono (by rw [s.population]; exact fun _ _ => id)
        (by rw [s.messages]; exact fun _ _ => id) (by rw [s.messages]; exact fun _ _ => id)

/-- The sender of a stored message is an account. -/
theorem Evolved.sender_mem (h : Evolved u) {d : Digest} {m : Message}
    (hm : u.messages.value? d = some m) : m.sender ∈ u.population := by
  obtain ⟨v, hv, rfl, rfl⟩ := Dag.value?_eq_some_iff.1 hm
  obtain ⟨a, ha, -⟩ := (h.authentic v hv).signed
  exact Population.mem_iff_account?.2 ⟨a, ha⟩

/-- A stored message has the id of its content and the signature of its sender, comes after its
sender's birth and all that it refers to, and is the only one that says what it says. -/
theorem stored_authentic (h : Reachable u) {d : Digest} {v : Vertex Message}
    (hv : u.messages.get? d = some v) :
    v.value.id = d ∧ v.value.contentId = d ∧
    (∃ a, u.population.account? v.value.sender = some a ∧
      v.value.verifySignature a.identity.key = .ok true ∧
      (¬ (v.value.sender = u.population.genesis.1 ∨ v.value.sender = u.population.genesis.2) →
        ∃ b, a.birthMessage = some b ∧ u.messages.Precedes b d)) ∧
    (∀ r ∈ v.value.references, u.messages.Precedes r.message d ∧
      ∃ target, u.messages.value? r.message = some target ∧ target.sender = r.sender) ∧
    (∀ p, p ∈ v.parents ↔ ∃ r ∈ v.value.references, r.message = p) ∧
    ∀ e w, u.messages.get? e = some w → w.value.sender = v.value.sender →
      w.value.body = v.value.body → w.value.references = v.value.references → e = d ∧ w = v := by
  obtain ⟨hmem, rfl⟩ := Dag.get?_eq_some_iff.1 hv
  have authentic := h.evolved.authentic v hmem
  refine ⟨authentic.id_eq, authentic.contentId_eq, ?_, authentic.references, authentic.parents, ?_⟩
  · obtain ⟨a, ha, hsigned, hborn⟩ := authentic.signed
    refine ⟨a, ha, hsigned, ?_⟩
    intro hgenesis
    cases hb : a.birthMessage with
    | none => exact absurd ((h.linked.genesis _).2 ⟨a, ha, hb⟩) hgenesis
    | some b => exact ⟨b, rfl, hborn b hb⟩
  · intro e w hw hsender hbody hreferences
    obtain ⟨hmem', rfl⟩ := Dag.get?_eq_some_iff.1 hw
    have hid : w.id = v.id := by
      rw [← (h.evolved.authentic w hmem').contentId_eq, ← authentic.contentId_eq]
      exact Message.contentId_congr hsender hbody hreferences
    exact ⟨hid, Dag.eq_of_id_eq hmem' hmem hid⟩

/-- The message of Abel's birth is signed with Adam's key, and its only parent is the first message,
which came before it. -/
theorem stored_authentic_birth : ∃ u v a, Reachable u ∧
    u.messages.get? Sample.birth.id = some v ∧ v.value = Sample.birth ∧
    Sample.birth.contentId = Sample.birth.id ∧
    u.population.account? Sample.adamId = some a ∧
    Sample.birth.verifySignature a.identity.key = .ok true ∧
    u.messages.Precedes Sample.first.id Sample.birth.id ∧
    ∀ p, p ∈ v.parents ↔ p = Sample.first.id := by
  obtain ⟨u, _, _, hu, _, _, _, _, hb⟩ := Sample.exists_family
  obtain ⟨v, hv, hvalue⟩ := Option.map_eq_some_iff.1 hb
  obtain ⟨_, hid, ⟨a, ha, signed, _⟩, references, parents, _⟩ := stored_authentic hu hv
  rw [hvalue] at hid ha signed references parents
  refine ⟨u, v, a, hu, hv, hvalue, hid, ha, signed,
    (references _ (List.mem_singleton_self _)).1, fun p => ?_⟩
  rw [parents]
  constructor
  · rintro ⟨r, hr, rfl⟩
    exact congrArg _ (List.mem_singleton.1 hr)
  · rintro rfl
    exact ⟨_, List.mem_singleton_self _, rfl⟩

end Universe

end Lineage
