import Lineage.Proofs.Universe.Growth
import Lineage.Proofs.Universe.Recounting

/-!
# Numbers fit into words

A message gets the number after one that has been given before, so no number goes beyond how many
messages have been counted. Numbers are words, and the addition that makes them would wrap around.
It never does before more messages are stored than a word can count, neither when a message is
taken in nor when a time proof is set up.
-/
namespace Lineage

namespace TimeProof

variable {t t' : TimeProof} {m : Message} {k : Nat}

/-- Whether the number that a message should get does not fit into a word. -/
def Overflows (t : TimeProof) (m : Message) : Prop :=
  Steps.maximum < 1 + (t.latest (t.countedReferences m)).toNat

/-- Whether this happens to a message of the root when those of a list are counted in turn. -/
def ReplayOverflows (t : TimeProof) : List Message → Prop
  | [] => False
  | m :: rest =>
    if m.sender = t.root then
      t.Overflows m ∨ ∃ t' sequence, t.extend m = .ok (t', sequence) ∧ t'.ReplayOverflows rest
    else t.ReplayOverflows rest

/-- No message has a number beyond `k`. -/
def Within (t : TimeProof) (k : Nat) : Prop := ∀ d n, t.sequence? d = some n → n.toNat ≤ k

theorem within_start (root anchor : Digest) : (start root anchor).Within 0 := by
  intro d n hn
  exact absurd (Dag.mem_iff_value?.2 ⟨n, hn⟩) Dag.not_mem_empty

theorem SameCount.within {s : TimeProof} (same : SameCount t s) (h : t.Within k) : s.Within k := by
  intro d n hn
  exact h d n (same.sequence? d ▸ hn)

namespace Within

theorem toNat_latest_le (h : t.Within k) (l : List Digest) : (t.latest l).toNat ≤ k := by
  rcases t.latest_eq_zero_or l with hzero | ⟨d, _, hd⟩
  · rw [hzero]
    exact Nat.zero_le k
  · exact h d _ hd

/-- Each message raises the greatest number by one at most, even if the addition wraps around. -/
theorem extend {sequence : Steps} (h : t.Within k) (e : t.Extension m t' sequence) :
    t'.Within (k + 1) := by
  have hnew : sequence.toNat ≤ k + 1 := by
    have hold := h.toNat_latest_le (t.countedReferences m)
    rw [e.sequence_eq, UInt64.toNat_add]
    exact (Nat.mod_le ..).trans (by simp; omega)
  intro d n hn
  by_cases hd : d = m.id
  · rw [hd, e.sequence?_self] at hn
    cases hn
    exact hnew
  · rw [e.sequence?_of_ne hd] at hn
    exact Nat.le_succ_of_le (h d n hn)

theorem countAll {l : List Message} {sequences : List Steps} (h : t.Within k)
    (hl : t.countAll l = .ok (t', sequences)) : t'.Within (k + l.length) := by
  induction l generalizing t k sequences with
  | nil => cases hl; exact h
  | cons m l ih =>
    obtain ⟨t₁, first, rest, hm, hrest, rfl⟩ := countAll_cons_eq_ok_iff.1 hl
    have later := ih (h.extend (extend_eq_ok_iff.1 hm)) hrest
    rwa [List.length_cons, Nat.add_comm l.length 1, ← Nat.add_assoc]

theorem not_overflows (h : t.Within k) (room : k < Steps.maximum) : ¬ t.Overflows m := by
  have hold := h.toNat_latest_le (t.countedReferences m)
  rw [Overflows]
  omega

theorem not_replayOverflows {l : List Message} (h : t.Within k)
    (room : k + (l.filter (·.sender = t.root)).length ≤ Steps.maximum) :
    ¬ t.ReplayOverflows l := by
  induction l generalizing t k with
  | nil => exact id
  | cons m l ih =>
    rw [ReplayOverflows]
    by_cases own : m.sender = t.root
    · rw [if_pos own]
      rw [List.filter_cons_of_pos (by simpa using own), List.length_cons] at room
      rintro (wraps | ⟨t', sequence, he, wraps⟩)
      · exact h.not_overflows (by omega) wraps
      · have e := extend_eq_ok_iff.1 he
        refine ih (h.extend e) ?_ wraps
        rw [e.root]
        omega
    · rw [if_neg own]
      rw [List.filter_cons_of_neg (by simpa using own)] at room
      exact ih h room

end Within

end TimeProof

namespace Universe

variable {u : Universe} {root : Digest} {t : TimeProof}

/-- Whether setting up a time proof for a message overflows. -/
def AnchorOverflows (u : Universe) (anchor : Digest) : Prop :=
  ∃ m, u.messages.value? anchor = some m ∧
    (TimeProof.start m.sender anchor).ReplayOverflows u.messageList

/-- Whether some addition overflows by which a call numbers a message. -/
def Overflows (u : Universe) : Call → Prop
  | .add m => u.validate m = .ok () ∧ (∃ proposal, m.proposedAccount = .ok proposal) ∧
      ∃ t, u.proofs.get? m.sender = some t ∧ t.Overflows m
  | .addTimeProof anchor => u.AnchorOverflows anchor
  | .addTimeProofFor sender => ∃ m ∈ u.messageList, m.sender = sender ∧ u.AnchorOverflows m.id

/-- Whether this happens in any of the calls of a run. -/
def OverflowsAlong (u : Universe) : List Call → Prop
  | [] => False
  | c :: rest => u.Overflows c ∨ (u.perform c).1.OverflowsAlong rest

theorem length_messageList : u.messageList.length = u.messages.size := by
  simp [messageList, Dag.vertices, Dag.size]

theorem length_filter_messageList_le :
    (u.messageList.filter (·.sender = root)).length ≤ u.messages.size :=
  length_messageList (u := u) ▸ List.length_filter_le ..

/-- A call stores one message at most. -/
theorem size_perform_le (h : Linked u) (c : Call) :
    (u.perform c).1.messages.size ≤ u.messages.size + 1 := by
  have step := step_perform h c
  generalize (u.perform c).1 = u' at step ⊢
  cases step with
  | stay => exact Nat.le_succ _
  | record s => exact (Dag.size_insert s.messages).le
  | birth s _ s' => exact s'.messages ▸ (Dag.size_insert s.messages).le
  | anchor s => exact s.messages ▸ Nat.le_succ _

theorem Evolved.size_run_le (h : Evolved u) (calls : List Call) :
    (u.run calls).messages.size ≤ u.messages.size + calls.length := by
  induction calls generalizing u with
  | nil => exact Nat.le_refl _
  | cons c rest ih =>
    have first := size_perform_le h.linked c
    have later := ih (h.trans (perform_evolves h.linked c))
    rw [List.length_cons]
    exact later.trans (by omega)

/-- The numbers of a root stay within the number of its stored messages. -/
theorem Evolved.within (h : Evolved u) (ht : u.proofs.get? root = some t) :
    t.Within (u.messageList.filter (·.sender = root)).length := by
  obtain ⟨t₀, sequences, hcount, same⟩ := (h.recounts root t ht).counted root
  have bound := (TimeProof.within_start root root).countAll hcount
  rw [Nat.zero_add] at bound
  exact same.within bound

theorem not_anchorOverflows {anchor : Digest} (room : u.messages.size ≤ Steps.maximum) :
    ¬ u.AnchorOverflows anchor := by
  rintro ⟨m, _, wraps⟩
  refine (TimeProof.within_start m.sender anchor).not_replayOverflows ?_ wraps
  rw [Nat.zero_add]
  exact length_filter_messageList_le.trans room

/-- A call that leaves no more messages than a word can count has not overflowed. -/
theorem Evolved.not_overflows (h : Evolved u) (c : Call)
    (room : (u.perform c).1.messages.size ≤ Steps.maximum) : ¬ u.Overflows c := by
  have grows : GrowsTo u (u.perform c).1 := (perform_evolves h.linked c).grows
  have room' : u.messages.size ≤ Steps.maximum := grows.messages.size_le.trans room
  cases c with
  | add m =>
    rintro ⟨hv, ⟨proposal, hp⟩, t, ht, wraps⟩
    have hmore : u.messages.size < (u.perform (.add m)).1.messages.size :=
      grows.messages.size_lt (mem_messages_add h.linked hv hp) (validate_eq_ok_iff.1 hv).1
    have hown : (u.messageList.filter (·.sender = m.sender)).length ≤ u.messages.size :=
      length_filter_messageList_le
    exact (h.within ht).not_overflows (by omega) wraps
  | addTimeProof anchor => exact not_anchorOverflows room'
  | addTimeProofFor sender =>
    rintro ⟨m, _, _, wraps⟩
    exact not_anchorOverflows room' wraps

theorem Evolved.not_overflowsAlong (h : Evolved u) {calls : List Call}
    (room : (u.run calls).messages.size ≤ Steps.maximum) : ¬ u.OverflowsAlong calls := by
  induction calls generalizing u with
  | nil => exact id
  | cons c rest ih =>
    have after : Evolved (u.perform c).1 := h.trans (perform_evolves h.linked c)
    rintro (wraps | wraps)
    · have grows := (after.evolves_run rest).grows
      exact h.not_overflows c (grows.messages.size_le.trans room) wraps
    · exact ih after room wraps

end Universe

end Lineage
