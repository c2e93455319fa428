import Lineage.Proofs.Dag.Agreement
import Lineage.Proofs.Universe.Authenticity
import Lineage.Proofs.Universe.Recounting

/-!
# The numbers follow from the messages

A message of a root gets the number after the greatest one among all messages of the root that it
refers to: they came before it, so all of them have been counted. That leaves no choice. Whatever
the order in which the messages came, and whenever the time proof was set up, its numbers and the
greatest of them are the same.
-/
namespace Lineage

/-- The ids of the messages of the same sender that a message refers to. -/
def Message.ownIds (m : Message) : List Digest := m.ownReferences.map (·.message)

namespace Message

variable {m : Message} {d : Digest}

theorem mem_ownIds : d ∈ m.ownIds ↔ ∃ r ∈ m.references, r.sender = m.sender ∧ r.message = d := by
  simp [ownIds, ownReferences, and_assoc]

end Message

namespace TimeProof

variable {t t' s : TimeProof} {messages messages' : Dag Message} {root : Digest} {m : Message}

/-- A time proof counts just the messages of a root, and each has the number after the greatest one
among those of the root that it refers to. -/
structure Numbers (messages : Dag Message) (root : Digest) (t : TimeProof) : Prop where
  counted : ∀ d ∈ t.sequences, ∃ m, messages.value? d = some m ∧ m.sender = root
  vertex : ∀ d m, messages.value? d = some m → m.sender = root →
    t.sequences.get? d = some ⟨d, 1 + t.latest m.ownIds, .ofList m.ownIds⟩
  bound : ∀ d n, t.sequence? d = some n → n ≤ t.maxSequence
  attained : t.maxSequence = 0 ∨ ∃ d, t.sequence? d = some t.maxSequence

theorem numbers_start (root anchor : Digest) : Numbers ∅ root (start root anchor) where
  counted := by intro d hd; exact absurd hd Dag.not_mem_empty
  vertex := by intro d m hm; exact absurd (Dag.mem_iff_value?.2 ⟨m, hm⟩) Dag.not_mem_empty
  bound := by intro d n hn; exact absurd (Dag.mem_iff_value?.2 ⟨n, hn⟩) Dag.not_mem_empty
  attained := .inl rfl

theorem SameCount.numbers (same : SameCount t s) (h : Numbers messages root t) :
    Numbers messages root s := by
  obtain ⟨_, _, _, _, _⟩ := s
  obtain ⟨rfl, rfl⟩ := same
  exact ⟨h.counted, h.vertex, h.bound, h.attained⟩

namespace Numbers

theorem sequence?_eq (h : Numbers messages root t) {d : Digest} (hm : messages.value? d = some m)
    (own : m.sender = root) : t.sequence? d = some (1 + t.latest m.ownIds) := by
  rw [sequence?, Dag.value?, h.vertex d m hm own, Option.map_some]

theorem mem_iff (h : Numbers messages root t) {d : Digest} :
    d ∈ t.sequences ↔ ∃ m, messages.value? d = some m ∧ m.sender = root := by
  refine ⟨h.counted d, ?_⟩
  rintro ⟨m, hm, hroot⟩
  exact Dag.mem_iff_value?.2 ⟨_, h.sequence?_eq hm hroot⟩

theorem fresh (h : Numbers messages root t) {d : Digest} (hd : d ∉ messages) :
    d ∉ t.sequences := by
  intro hin
  obtain ⟨m, hm, _⟩ := h.counted d hin
  exact hd (Dag.mem_iff_value?.2 ⟨m, hm⟩)

/-- A message of somebody else does not matter. -/
theorem pass {parents : DigestSet} (h : Numbers messages root t)
    (i : messages.insert ⟨m.id, m, parents⟩ = .ok messages') (hne : m.sender ≠ root) :
    Numbers messages' root t where
  counted := by
    intro d hd
    obtain ⟨m, hm, hroot⟩ := h.counted d hd
    exact ⟨m, Dag.value?_mono i hm, hroot⟩
  vertex := by
    intro d x hx hroot
    rw [Dag.value?_insert i] at hx
    split at hx
    · cases hx
      exact absurd hroot hne
    · exact h.vertex d x hx hroot
  bound := h.bound
  attained := h.attained

/-- A message of the root finds all that it refers to counted. -/
theorem extend {parents : DigestSet} {n : Steps} (h : Numbers messages m.sender t)
    (i : messages.insert ⟨m.id, m, parents⟩ = .ok messages')
    (references : ∀ r ∈ m.references, ∃ target, messages.value? r.message = some target ∧
      target.sender = r.sender)
    (closed : ∀ d x, messages.value? d = some x → ∀ r ∈ x.references, r.message ∈ messages)
    (e : t.Extension m t' n) : Numbers messages' m.sender t' := by
  have all : t.countedReferences m = m.ownIds := by
    refine List.filter_eq_self.2 fun d hd => decide_eq_true ?_
    obtain ⟨r, hr, hown, rfl⟩ := Message.mem_ownIds.1 hd
    obtain ⟨target, ht, hsender⟩ := references r hr
    exact h.mem_iff.2 ⟨target, ht, hsender.trans hown⟩
  have keep : ∀ x : Message, (∀ r ∈ x.references, r.message ∈ messages) →
      t'.latest x.ownIds = t.latest x.ownIds := by
    intro x hx
    refine latest_congr fun d hd => e.sequence?_of_ne ?_
    obtain ⟨r, hr, _, rfl⟩ := Message.mem_ownIds.1 hd
    exact Dag.ne_of_mem i (hx r hr)
  have hn := e.sequence_eq
  have hs := e.sequences
  rw [all] at hn hs
  have hmax : t.maxSequence ≤ t'.maxSequence ∧ n ≤ t'.maxSequence := by
    rw [e.maxSequence, UInt64.le_iff_toNat_le, UInt64.le_iff_toNat_le, UInt64.toNat_max]
    exact ⟨Nat.le_max_left .., Nat.le_max_right ..⟩
  constructor
  · intro d hd
    rcases e.mem_iff.1 hd with rfl | hd
    · exact ⟨m, Dag.value?_insert_self i, rfl⟩
    · obtain ⟨x, hx, hroot⟩ := h.counted d hd
      exact ⟨x, Dag.value?_mono i hx, hroot⟩
  · intro d x hx hroot
    rw [Dag.value?_insert i] at hx
    rw [Dag.get?_insert hs]
    split at hx
    · next hd =>
      cases hx
      rw [if_pos hd, hd, hn, keep m]
      intro r hr
      obtain ⟨target, ht, _⟩ := references r hr
      exact Dag.mem_iff_value?.2 ⟨target, ht⟩
    · next hd => rw [if_neg hd, h.vertex d x hx hroot, keep x (closed d x hx)]
  · intro d k hk
    by_cases hd : d = m.id
    · rw [hd, e.sequence?_self] at hk
      cases hk
      exact hmax.2
    · rw [e.sequence?_of_ne hd] at hk
      exact UInt64.le_trans (h.bound d k hk) hmax.1
  · have hcase : t'.maxSequence = n ∨ t'.maxSequence = t.maxSequence := by
      rw [e.maxSequence]
      exact (ite_eq_or_eq ..)
    rcases hcase with hnew | hold
    · exact .inr ⟨m.id, hnew ▸ e.sequence?_self⟩
    · rw [hold]
      refine h.attained.imp_right ?_
      rintro ⟨d, hd⟩
      exact ⟨d, Dag.value?_mono e.sequences hd⟩

/-- The messages determine the numbers, up to the order in which they were given. A number depends on
those of the parents, so this is by induction along the references. -/
theorem agree (h : Numbers messages root t) (h' : Numbers messages' root s)
    (same : messages.AgreeOff [] messages')
    (parents : ∀ v ∈ messages.newestFirst, ∀ r ∈ v.value.references, r.message ∈ v.parents) :
    t.sequences.AgreeOff [] s.sequences := by
  have value? : ∀ d, messages'.value? d = messages.value? d :=
    fun d => same.value? List.not_mem_nil
  have outside : ∀ d, (∀ m, messages.value? d = some m → m.sender ≠ root) →
      s.sequences.get? d = t.sequences.get? d := by
    intro d hd
    have ht : d ∉ t.sequences := by
      rw [h.mem_iff]
      rintro ⟨m, hm, hroot⟩
      exact hd m hm hroot
    have hs : d ∉ s.sequences := by
      rw [h'.mem_iff, value?]
      rintro ⟨m, hm, hroot⟩
      exact hd m hm hroot
    rw [← Dag.value?_eq_none, Dag.value?, Option.map_eq_none_iff] at ht hs
    rw [ht, hs]
  have inside : ∀ d ∈ messages, s.sequences.get? d = t.sequences.get? d := by
    refine messages.grown.induction fun v hv ih => ?_
    have hm : messages.value? v.id = some v.value := Dag.value?_eq_some_iff.2 ⟨v, hv, rfl, rfl⟩
    by_cases hroot : v.value.sender = root
    · have hlatest : s.latest v.value.ownIds = t.latest v.value.ownIds := by
        refine latest_congr fun d hd => ?_
        obtain ⟨r, hr, _, rfl⟩ := Message.mem_ownIds.1 hd
        rw [sequence?, Dag.value?, ih _ (parents v hv r hr), sequence?, Dag.value?]
      rw [h.vertex _ _ hm hroot, h'.vertex _ _ ((value? v.id).trans hm) hroot, hlatest]
    · refine outside v.id ?_
      intro m hm'
      rw [hm] at hm'
      cases hm'
      exact hroot
  intro d _
  by_cases hd : d ∈ messages
  · exact inside d hd
  · refine outside d ?_
    intro m hm
    exact absurd (Dag.mem_iff_value?.2 ⟨m, hm⟩) hd

/-- The greatest number is determined by the numbers. -/
theorem maxSequence_le (h : Numbers messages root t) (h' : Numbers messages' root s)
    (same : t.sequences.AgreeOff [] s.sequences) : t.maxSequence ≤ s.maxSequence := by
  rcases h.attained with h0 | ⟨d, hd⟩
  · rw [h0]
    exact UInt64.le_iff_toNat_le.2 (Nat.zero_le _)
  · exact h'.bound d _ ((same.value? List.not_mem_nil).trans hd)

end Numbers

end TimeProof

namespace Universe

variable {u u' : Universe} {root : Digest} {t : TimeProof}

/-- Counting the messages of a root from nothing comes to the numbers that they demand. -/
theorem Evolved.exists_numbers (h : Evolved u) (root anchor : Digest) :
    ∃ t sequences, (TimeProof.start root anchor).countAll
      (u.messageList.filter (·.sender = root)) = .ok (t, sequences) ∧
      t.Numbers u.messages root := by
  induction h with
  | seed _ => exact ⟨_, [], rfl, TimeProof.numbers_start root anchor⟩
  | @step u u' h s ih =>
    obtain ⟨t, sequences, hcount, numbers⟩ := ih
    cases s with
    | @record m _ s =>
      by_cases hm : m.sender = root
      · subst hm
        obtain ⟨t', n, he⟩ := TimeProof.exists_extend (numbers.fresh s.fresh)
        have closed : ∀ d x, u.messages.value? d = some x → ∀ r ∈ x.references,
            r.message ∈ u.messages := by
          intro d x hx r hr
          obtain ⟨v, hv, _, rfl⟩ := Dag.value?_eq_some_iff.1 hx
          obtain ⟨_, target, ht, _⟩ := (h.authentic v hv).references r hr
          exact Dag.mem_iff_value?.2 ⟨target, ht⟩
        rw [s.filter_own rfl]
        exact ⟨t', sequences ++ [n], TimeProof.countAll_append_singleton hcount he,
          numbers.extend s.messages s.references closed (TimeProof.extend_eq_ok_iff.1 he)⟩
      · rw [s.filter_other hm]
        exact ⟨t, sequences, hcount, numbers.pass s.messages hm⟩
    | birth s =>
      rw [messageList, s.messages]
      exact ⟨t, sequences, hcount, numbers⟩
    | anchor s =>
      rw [messageList, s.messages]
      exact ⟨t, sequences, hcount, numbers⟩

theorem Evolved.numbers (h : Evolved u) (ht : u.proofs.get? root = some t) :
    t.Numbers u.messages root := by
  obtain ⟨t₀, sequences, hcount, numbers⟩ := h.exists_numbers root root
  obtain ⟨t₁, sequences', hcount', same⟩ := (h.recounts root t ht).counted root
  rw [hcount] at hcount'
  cases hcount'
  exact same.numbers numbers

end Universe

end Lineage
