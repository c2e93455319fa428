import Lineage.Proofs.Universe.Numbering

/-!
# Which messages refer to which

A stored message refers directly to those that its references name. In the graph of messages these
are its parents, so its ancestors are all messages that it refers to directly or indirectly. Among
them, those that it refers to as messages of its own sender are really from its sender.
-/
namespace Lineage

/-- Whether a stored message refers directly to another one. -/
def CitedIn (messages : Dag Message) (earlier later : Digest) : Prop :=
  ∃ m, messages.value? later = some m ∧ ∃ r ∈ m.references, r.message = earlier

/-- Whether a stored message refers to another one, directly or through others. -/
def KnownTo (messages : Dag Message) : Digest → Digest → Prop :=
  Relation.TransGen (CitedIn messages)

namespace Universe

variable {u : Universe} {a d p : Digest} {m : Message}

theorem Evolved.citedIn_iff (h : Evolved u) :
    CitedIn u.messages a d ↔ Dag.ParentIn u.messages.newestFirst a d := by
  constructor
  · rintro ⟨m, hm, hr⟩
    obtain ⟨v, hv, hid, rfl⟩ := Dag.value?_eq_some_iff.1 hm
    exact ⟨v, hv, hid, ((h.authentic v hv).parents a).2 hr⟩
  · rintro ⟨v, hv, rfl, hp⟩
    exact ⟨v.value, Dag.value?_eq_some_iff.2 ⟨v, hv, rfl, rfl⟩, ((h.authentic v hv).parents a).1 hp⟩

/-- The ancestors of a message are all that it refers to. -/
theorem Evolved.mem_ancestors_iff (h : Evolved u) :
    a ∈ u.messages.ancestors d ↔ KnownTo u.messages a d := by
  have hrel : CitedIn u.messages = Dag.ParentIn u.messages.newestFirst := by
    funext p d
    exact propext h.citedIn_iff
  rw [Dag.mem_ancestors_iff, KnownTo, hrel]

theorem Evolved.mem_of_knownTo (h : Evolved u) (hk : KnownTo u.messages a d) : a ∈ u.messages :=
  Dag.mem_of_mem_ancestors (h.mem_ancestors_iff.2 hk)

/-- What a message refers to as a message of its own sender is stored, and from its sender. -/
theorem Evolved.mem_ownIds_iff (h : Evolved u) (hm : u.messages.value? d = some m) :
    p ∈ m.ownIds ↔
      CitedIn u.messages p d ∧ ∃ x, u.messages.value? p = some x ∧ x.sender = m.sender := by
  obtain ⟨v, hv, rfl, rfl⟩ := Dag.value?_eq_some_iff.1 hm
  have references := (h.authentic v hv).references
  rw [Message.mem_ownIds]
  constructor
  · rintro ⟨r, hr, hown, rfl⟩
    obtain ⟨_, x, hx, hsender⟩ := references r hr
    exact ⟨⟨v.value, hm, r, hr, rfl⟩, x, hx, hsender.trans hown⟩
  · rintro ⟨⟨_, hm', r, hr, rfl⟩, x, hx, hsender⟩
    rw [hm] at hm'
    cases hm'
    obtain ⟨_, target, ht, htarget⟩ := references r hr
    rw [hx] at ht
    cases ht
    exact ⟨r, hr, htarget.symm.trans hsender, rfl⟩

end Universe

end Lineage
