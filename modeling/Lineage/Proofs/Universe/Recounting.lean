import Lineage.Proofs.Universe.Reachable

/-!
# Time proofs can be had again from what is stored

A time proof that was there when a message came has counted it then, and one that was set up later
has counted it with all others. Both ways come to the same numbers, so the whole time proof follows
from the stored messages of its root. The times of birth in it are those at which its members'
birth messages stand now, because no time changes once a message is stored.
-/
namespace Lineage.Universe

variable {u u' : Universe} {root : Digest} {t t' : TimeProof}

/-- A time proof has counted the stored messages of its root in the order in which they came, and
its members were born at the times of their birth messages. -/
structure Recounts (u : Universe) (root : Digest) (t : TimeProof) : Prop where
  counted : ∀ anchor, ∃ t₀ sequences, (TimeProof.start root anchor).countAll
    (u.messageList.filter (·.sender = root)) = .ok (t₀, sequences) ∧ t₀.SameCount t
  born : ∀ d membership, t.member? d = some membership →
    ∃ a, u.population.account? d = some a ∧ membership = ⟨t.birthTime u.messages a⟩

theorem Recorded.messageList_eq {m : Message} (s : Recorded u m u') :
    u'.messageList = u.messageList ++ [m] := by
  rw [messageList, Dag.vertices_insert s.messages, List.map_append]
  rfl

/-- A new message is the last of its sender's messages. -/
theorem Recorded.filter_own {m : Message} (s : Recorded u m u') (own : m.sender = root) :
    u'.messageList.filter (·.sender = root) = u.messageList.filter (·.sender = root) ++ [m] := by
  rw [s.messageList_eq, List.filter_append]
  simp [own]

/-- It is none of the messages of anybody else. -/
theorem Recorded.filter_other {m : Message} (s : Recorded u m u') (other : m.sender ≠ root) :
    u'.messageList.filter (·.sender = root) = u.messageList.filter (·.sender = root) := by
  rw [s.messageList_eq, List.filter_append]
  simp [other]

/-- The times of birth stay when a message is stored, whether it is counted or not. -/
theorem Recorded.birthTime_eq {m : Message} (s : Recorded u m u') (hu : Linked u)
    (hcase : t' = t ∨ ∃ sequence, t.Extension m t' sequence) {d : Digest} {a : Account}
    (ha : u.population.account? d = some a) :
    t'.birthTime u'.messages a = t.birthTime u.messages a := by
  rw [TimeProof.birthTime, TimeProof.birthTime]
  cases hb : a.birthMessage with
  | none => rfl
  | some b =>
    have hmem := hu.birthMessage d a b ha hb
    rw [Option.map_some, Option.map_some, TimeProof.causalTime_insert s.messages hmem]
    rcases hcase with rfl | ⟨sequence, hext⟩
    · rfl
    · rw [TimeProof.causalTime_extend hext s.fresh hmem]

theorem Recorded.recounts {m : Message} (s : Recorded u m u') (hu : Linked u)
    (h : ∀ root t, u.proofs.get? root = some t → Recounts u root t)
    (ht' : u'.proofs.get? root = some t') : Recounts u' root t' := by
  obtain ⟨t, ht, hcase⟩ := s.get?_proofs ht'
  have ih := h root t ht
  constructor
  · intro anchor
    obtain ⟨t₀, sequences, hcount, same⟩ := ih.counted anchor
    rcases hcase with ⟨hne, rfl⟩ | ⟨rfl, sequence, hext⟩
    · rw [s.filter_other hne.symm]
      exact ⟨t₀, sequences, hcount, same⟩
    · obtain ⟨t₁, hext₁, same₁⟩ := same.symm.extend hext
      rw [s.filter_own rfl]
      exact ⟨t₁, sequences ++ [sequence], TimeProof.countAll_append_singleton hcount
        (TimeProof.extend_eq_ok_iff.2 hext₁), same₁.symm⟩
  · intro d membership hm
    have hkept : t'.memberships = t.memberships ∧
        (t' = t ∨ ∃ sequence, t.Extension m t' sequence) := by
      rcases hcase with ⟨_, rfl⟩ | ⟨_, sequence, hext⟩
      · exact ⟨rfl, .inl rfl⟩
      · exact ⟨hext.memberships, .inr ⟨sequence, hext⟩⟩
    rw [TimeProof.member?, hkept.1] at hm
    obtain ⟨a, ha, rfl⟩ := ih.born d membership hm
    refine ⟨a, s.population ▸ ha, ?_⟩
    rw [s.birthTime_eq hu hkept.2 ha]

theorem Admitted.recounts {b : Population.CheckedBirth} {message : Digest}
    (s : Admitted u b message u') (hu : Linked u)
    (h : ∀ root t, u.proofs.get? root = some t → Recounts u root t)
    (ht' : u'.proofs.get? root = some t') : Recounts u' root t' := by
  obtain ⟨t, ht, same, keep, hself⟩ := s.member? hu ht'
  have ih := h root t ht
  constructor
  · intro anchor
    obtain ⟨t₀, sequences, hcount, same₀⟩ := ih.counted anchor
    rw [messageList, s.messages]
    exact ⟨t₀, sequences, hcount, same₀.trans same⟩
  · intro d membership hm
    rw [s.messages]
    simp only [same.birthTime]
    by_cases hnew : d = b.account.id
    · subst hnew
      obtain ⟨_, rfl⟩ := hself membership hm
      refine ⟨b.account, by rw [s.population.account?, if_pos rfl], ?_⟩
      rw [TimeProof.birthTime, s.birthMessage_eq hu.message_id]
      rfl
    · rw [keep d hnew] at hm
      obtain ⟨a, ha, rfl⟩ := ih.born d membership hm
      exact ⟨a, by rw [s.population.account?, if_neg hnew, ha], rfl⟩

theorem Anchored.recounts {anchored message : Digest} (s : Anchored u anchored message u')
    (hu : Linked u) (h : ∀ root t, u.proofs.get? root = some t → Recounts u root t)
    (ht' : u'.proofs.get? root = some t') : Recounts u' root t' := by
  obtain ⟨t, built, hproofs⟩ := s.built hu
  have hlist : u'.messageList = u.messageList := by
    rw [messageList, s.messages, messageList]
  rw [hproofs, DigestMap.get?_insert] at ht'
  by_cases hr : root = anchored
  · rw [if_pos hr] at ht'
    cases ht'
    subst hr
    obtain ⟨t₀, sequences, hcount, same⟩ := built.counted
    constructor
    · intro anchor
      rw [hlist]
      have start : (TimeProof.start root message).SameCount (.start root anchor) := ⟨rfl, rfl⟩
      obtain ⟨t₁, hcount₁, same₁⟩ := start.countAll hcount
      exact ⟨t₁, sequences, hcount₁, same₁.symm.trans same⟩
    · intro d membership hm
      rw [s.population, s.messages]
      exact (built.member? d membership).1 hm
  · rw [if_neg hr] at ht'
    obtain ⟨hcounted, hborn⟩ := h root t' ht'
    exact ⟨hlist ▸ hcounted, s.population ▸ s.messages ▸ hborn⟩

theorem Evolved.recounts (h : Evolved u) :
    ∀ root t, u.proofs.get? root = some t → Recounts u root t := by
  induction h with
  | seed _ => intro root t ht; cases ht
  | step h s ih =>
    intro root t ht
    cases s with
    | record s => exact s.recounts h.linked ih ht
    | birth s => exact s.recounts h.linked ih ht
    | anchor s => exact s.recounts h.linked ih ht

/-- Time proofs whose root has sent the same have counted the same, in whatever universes. -/
theorem Recounts.sameCount (h : Recounts u root t) (h' : Recounts u' root t')
    (same : u'.messageList.filter (·.sender = root) = u.messageList.filter (·.sender = root)) :
    t.SameCount t' := by
  obtain ⟨t₀, sequences, hcount, counted⟩ := h.counted root
  obtain ⟨t₁, sequences', hcount', counted'⟩ := h'.counted root
  rw [same, hcount] at hcount'
  cases hcount'
  exact counted.symm.trans counted'

/-- What is not from the root of a time proof has no number there. -/
theorem Recounts.sequence?_eq_none (h : Recounts u root t) (hu : Linked u) {d : Digest}
    {m : Message} (hm : u.messages.value? d = some m) (hne : m.sender ≠ root) :
    t.sequence? d = none := by
  obtain ⟨t₀, sequences, hcount, same⟩ := h.counted root
  rw [same.sequence?]
  refine Dag.value?_eq_none.2 fun hin => ?_
  rcases (TimeProof.recount_of_countAll hcount).mem_iff d |>.1 hin with hin | hin
  · exact Dag.not_mem_empty hin
  · obtain ⟨m', hmem, rfl⟩ := List.mem_map.1 hin
    obtain ⟨hlist, hsender⟩ := List.mem_filter.1 hmem
    rw [hu.mem_messageList.1 hlist] at hm
    cases hm
    exact hne (by simpa using hsender)

/-- Counting the stored messages of its root from nothing comes to the numbers of a time proof, and
all its members were born when their birth messages stand now, the genesis accounts at zero. -/
theorem recount_agrees (h : Reachable u) (ht : u.proofs.get? root = some t) :
    (∀ anchor, ∃ t₀ sequences,
      (TimeProof.start root anchor).countAll (u.messageList.filter (·.sender = root)) =
        .ok (t₀, sequences) ∧
      t₀.sequences = t.sequences ∧ t₀.maxSequence = t.maxSequence ∧
      (u.messageList.filter (·.sender = root)).map (fun m => t.sequence? m.id) =
        sequences.map some) ∧
    (∀ d m, u.messages.value? d = some m → m.sender ≠ root → t.sequence? d = none) ∧
    ∀ d membership, t.member? d = some membership → ∃ a, u.population.account? d = some a ∧
      if d = u.population.genesis.1 ∨ d = u.population.genesis.2 then membership.bornAt = 0
      else ∃ b, a.birthMessage = some b ∧ b ∈ u.messages ∧
        membership.bornAt = t.causalTime u.messages b := by
  have linked := h.linked
  have recounts := h.evolved.recounts root t ht
  refine ⟨?_, ?_, ?_⟩
  · intro anchor
    obtain ⟨t₀, sequences, hcount, same⟩ := recounts.counted anchor
    refine ⟨t₀, sequences, hcount, same.sequences.symm, same.maxSequence.symm, ?_⟩
    simp only [same.sequence?]
    exact TimeProof.map_sequence?_of_countAll hcount
  · intro d m hm hne
    exact recounts.sequence?_eq_none linked hm hne
  · intro d membership hm
    obtain ⟨a, ha, rfl⟩ := recounts.born d membership hm
    refine ⟨a, ha, ?_⟩
    cases hb : a.birthMessage with
    | none =>
      rw [if_pos ((linked.genesis d).2 ⟨a, ha, hb⟩), TimeProof.birthTime, hb]
      rfl
    | some b =>
      have hborn : ¬ (d = u.population.genesis.1 ∨ d = u.population.genesis.2) := by
        intro hg
        obtain ⟨a', ha', hb'⟩ := (linked.genesis d).1 hg
        rw [ha] at ha'
        cases ha'
        rw [hb] at hb'
        cases hb'
      rw [if_neg hborn]
      refine ⟨b, rfl, linked.birthMessage d a b ha hb, ?_⟩
      rw [TimeProof.birthTime, hb]
      rfl

/-- Abel's time of birth is that of his birth message in Adam's time proof. -/
theorem recount_agrees_abel : ∃ u t a b, Reachable u ∧ u.proofs.get? Sample.adamId = some t ∧
    t.member? Sample.abelId = some ⟨2⟩ ∧ u.population.account? Sample.abelId = some a ∧
    a.birthMessage = some b ∧ b ∈ u.messages ∧ t.causalTime u.messages b = 2 := by
  obtain ⟨u, t, _, hu, ht, hm, _⟩ := Sample.exists_family
  obtain ⟨a, ha, hborn⟩ := (recount_agrees hu ht).2.2 Sample.abelId ⟨2⟩ hm
  split at hborn
  · exact absurd hborn (by decide)
  · obtain ⟨b, hb, hmem, htime⟩ := hborn
    exact ⟨u, t, a, b, hu, ht, hm, ha, hb, hmem, htime.symm⟩

end Lineage.Universe
