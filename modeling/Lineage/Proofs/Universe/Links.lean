import Lineage.Proofs.Universe.Anchoring

/-!
# How the parts of a universe hang together

A vertex bears the id of what it holds, the edges between accounts lead to the parents that they
name, all accounts but the genesis accounts have a birth message, which is stored, a time proof
counts stored messages and has accounts as members, and there is one snapshot for each time proof.
Every change keeps this. It is what a universe relies on when it has begun to change: the
insertions that come after a first one never fail.
-/
namespace Lineage.Universe

structure Linked (u : Universe) : Prop where
  message_id : ∀ d m, u.messages.value? d = some m → m.id = d
  account_id : ∀ d a, u.population.account? d = some a → a.id = d
  parents : ∀ v ∈ u.population.residents.newestFirst, ∀ d, d ∈ v.parents ↔
    ∃ q, v.value.account.parentIds = some q ∧ (d = q.1 ∨ d = q.2)
  genesis : ∀ d, d = u.population.genesis.1 ∨ d = u.population.genesis.2 ↔
    ∃ a, u.population.account? d = some a ∧ a.birthMessage = none
  birthMessage : ∀ d a b, u.population.account? d = some a → a.birthMessage = some b →
    b ∈ u.messages
  root : ∀ root t, u.proofs.get? root = some t → t.root = root
  counted : ∀ root t d, u.proofs.get? root = some t → d ∈ t.sequences → d ∈ u.messages
  members : ∀ root t d, u.proofs.get? root = some t → d ∈ t.memberships → d ∈ u.population
  snapshots : ∀ root, root ∈ u.snapshots ↔ root ∈ u.proofs

variable {u u' : Universe}

theorem Linked.distinct (h : Linked u) : (u.messageList.map (·.id)).Nodup := by
  have hids : u.messageList.map (·.id) = u.messages.ids := by
    rw [messageList, List.map_map, Dag.ids]
    apply List.map_congr_left
    intro v hv
    exact h.message_id v.id v.value
      (Dag.value?_eq_some_iff.2 ⟨v, Dag.mem_vertices.1 hv, rfl, rfl⟩)
  rw [hids]
  exact u.messages.nodup_ids

/-- The stored messages are those that are found under their own ids. -/
theorem Linked.mem_messageList (h : Linked u) {m : Message} :
    m ∈ u.messageList ↔ u.messages.value? m.id = some m := by
  rw [messageList, List.mem_map, Dag.value?_eq_some_iff]
  constructor
  · rintro ⟨v, hv, rfl⟩
    have hfound := Dag.value?_eq_some_iff.2 ⟨v, Dag.mem_vertices.1 hv, rfl, rfl⟩
    exact ⟨v, Dag.mem_vertices.1 hv, (h.message_id v.id v.value hfound).symm, rfl⟩
  · rintro ⟨v, hv, _, hm⟩
    exact ⟨v, Dag.mem_vertices.2 hv, hm⟩

/-- The children of an account are those that name it as a parent. -/
theorem Linked.mem_children (h : Linked u) {parent child : Digest} :
    child ∈ u.population.children parent ↔
      ∃ q, u.population.HasParents child q ∧ (parent = q.1 ∨ parent = q.2) := by
  rw [Population.children, Dag.mem_children]
  constructor
  · rintro ⟨v, hv, hp, rfl⟩
    obtain ⟨q, hq, hor⟩ := (h.parents v hv parent).1 hp
    have ha := Population.account?_eq_some_iff.2 ⟨v, hv, rfl, rfl⟩
    exact ⟨q, ⟨v.value.account, ha, hq⟩, hor⟩
  · rintro ⟨q, ⟨a, ha, hq⟩, hor⟩
    obtain ⟨v, hv, rfl, rfl⟩ := Population.account?_eq_some_iff.1 ha
    exact ⟨v, hv, (h.parents v hv parent).2 ⟨q, hq, hor⟩, rfl⟩

/-- A universe before its first message. -/
def seed (p : Population) : Universe := ⟨∅, p, ∅, ∅⟩

@[simp] theorem seed_population (p : Population) : (seed p).population = p := rfl

theorem linked_seed {g : GenesisPair} {law : Law.Parameters} {p : Population}
    (h : Population.Founding g law p) : Linked (seed p) where
  message_id := by
    intro d m hm
    exact absurd (Dag.mem_iff_value?.2 ⟨m, hm⟩) Dag.not_mem_empty
  account_id := by
    intro d a ha
    obtain ⟨v, hv, hid, rfl⟩ := Population.account?_eq_some_iff.1 ha
    rw [seed_population, h.residents] at hv
    rcases List.mem_pair.1 hv with rfl | rfl <;> exact hid
  parents := by
    intro v hv d
    rw [seed_population, h.residents] at hv
    rcases List.mem_pair.1 hv with rfl | rfl
    · simp [(Account.unborn_iff.1 g.unborn_second).1]
    · simp [(Account.unborn_iff.1 g.unborn_first).1]
  genesis := by
    intro d
    rw [seed_population, h.genesis_eq, GenesisPair.ids]
    simp only [Population.account?_eq_some_iff, h.residents, List.mem_pair]
    constructor
    · rintro (rfl | rfl)
      · exact ⟨g.first, ⟨_, .inr rfl, rfl, rfl⟩, (Account.unborn_iff.1 g.unborn_first).2⟩
      · exact ⟨g.second, ⟨_, .inl rfl, rfl, rfl⟩, (Account.unborn_iff.1 g.unborn_second).2⟩
    · rintro ⟨a, ⟨v, rfl | rfl, hid, _⟩, _⟩
      · exact .inr hid.symm
      · exact .inl hid.symm
  birthMessage := by
    intro d a b ha hb
    obtain ⟨v, hv, _, rfl⟩ := Population.account?_eq_some_iff.1 ha
    rw [seed_population, h.residents] at hv
    rcases List.mem_pair.1 hv with rfl | rfl
    · rw [(Account.unborn_iff.1 g.unborn_second).2] at hb
      cases hb
    · rw [(Account.unborn_iff.1 g.unborn_first).2] at hb
      cases hb
  root := by intro root t ht; cases ht
  counted := by intro root t d ht; cases ht
  members := by intro root t d ht; cases ht
  snapshots := by
    intro root
    exact ⟨fun h => absurd h Dag.not_mem_empty, fun h => by cases h⟩

theorem Recorded.linked {m : Message} (s : Recorded u m u') (h : Linked u) : Linked u' where
  message_id := by
    intro d m' hm'
    rw [Dag.value?_insert s.messages] at hm'
    by_cases hd : d = m.id
    · rw [if_pos hd] at hm'
      cases hm'
      exact hd.symm
    · rw [if_neg hd] at hm'
      exact h.message_id d m' hm'
  account_id := by rw [s.population]; exact h.account_id
  parents := by rw [s.population]; exact h.parents
  genesis := by rw [s.population]; exact h.genesis
  birthMessage := by
    rw [s.population]
    intro d a b ha hb
    exact Dag.mem_insert_of_mem s.messages (h.birthMessage d a b ha hb)
  root := by
    intro root t' ht'
    obtain ⟨t, ht, ⟨_, rfl⟩ | ⟨_, sequence, hext⟩⟩ := s.get?_proofs ht'
    · exact h.root root t' ht
    · exact hext.root.trans (h.root root t ht)
  counted := by
    intro root t' d ht' hd
    obtain ⟨t, ht, ⟨_, rfl⟩ | ⟨_, sequence, hext⟩⟩ := s.get?_proofs ht'
    · exact Dag.mem_insert_of_mem s.messages (h.counted root t' d ht hd)
    · rcases hext.mem_iff.1 hd with rfl | hd
      · exact s.stored
      · exact Dag.mem_insert_of_mem s.messages (h.counted root t d ht hd)
  members := by
    rw [s.population]
    intro root t' d ht' hd
    obtain ⟨t, ht, ⟨_, rfl⟩ | ⟨_, sequence, hext⟩⟩ := s.get?_proofs ht'
    · exact h.members root t' d ht hd
    · exact h.members root t d ht (hext.memberships ▸ hd)
  snapshots := by
    intro root
    rw [s.snapshots, s.mem_proofs]
    exact h.snapshots root

theorem Admitted.linked {b : Population.CheckedBirth} {message : Digest}
    (s : Admitted u b message u') (h : Linked u) : Linked u' where
  message_id := by rw [s.messages]; exact h.message_id
  account_id := by
    intro d a ha
    rw [s.population.account?] at ha
    by_cases hd : d = b.account.id
    · rw [if_pos hd] at ha
      cases ha
      exact hd.symm
    · rw [if_neg hd] at ha
      exact h.account_id d a ha
  parents := by
    intro v hv d
    rw [Dag.newestFirst_insert s.population.residents] at hv
    rcases List.mem_cons.1 hv with rfl | hv
    · simp [s.parentIds_eq]
    · exact h.parents v hv d
  genesis := by
    intro d
    have hborn := s.birthMessage_eq h.message_id
    rw [s.population.genesis_eq, s.population.account?, h.genesis d]
    by_cases hd : d = b.account.id
    · have hout : u.population.account? d = none := by
        rw [hd]
        exact Population.account?_eq_none.2 s.population.fresh
      simp [hd, hd ▸ hout, hborn]
    · simp [hd]
  birthMessage := by
    intro d a c ha hc
    rw [s.messages]
    rw [s.population.account?] at ha
    by_cases hd : d = b.account.id
    · rw [if_pos hd] at ha
      cases ha
      rw [s.birthMessage_eq h.message_id] at hc
      cases hc
      obtain ⟨m, hm, _⟩ := s.carried
      exact Dag.mem_iff_value?.2 ⟨m, hm⟩
    · rw [if_neg hd] at ha
      exact h.birthMessage d a c ha hc
  root := by
    intro root t' ht'
    obtain ⟨t, ht, ⟨_, rfl⟩ | ⟨_, henr⟩⟩ := s.get?_proofs ht'
    · exact h.root root t' ht
    · exact henr.root.trans (h.root root t ht)
  counted := by
    rw [s.messages]
    intro root t' d ht' hd
    obtain ⟨t, ht, ⟨_, rfl⟩ | ⟨_, henr⟩⟩ := s.get?_proofs ht'
    · exact h.counted root t' d ht hd
    · exact h.counted root t d ht (henr.sequences ▸ hd)
  members := by
    intro root t' d ht' hd
    obtain ⟨t, ht, ⟨_, rfl⟩ | ⟨_, henr⟩⟩ := s.get?_proofs ht'
    · exact s.population.mem_iff.2 (.inr (h.members root t' d ht hd))
    · rcases henr.mem_iff.1 hd with hd | hd
      · exact s.population.mem_iff.2 (.inl hd)
      · exact s.population.mem_iff.2 (.inr (h.members root t d ht hd))
  snapshots := by
    intro root
    rw [s.snapshots, s.mem_proofs]
    exact h.snapshots root

/-- Of the members of a time proof after an admission only the new account may be new, and it was
born at the time of its message there, which let it pass. -/
theorem Admitted.member? {b : Population.CheckedBirth} {message : Digest}
    (s : Admitted u b message u') (h : Linked u) {root : Digest} {t' : TimeProof}
    (ht' : u'.proofs.get? root = some t') : ∃ t, u.proofs.get? root = some t ∧
      t.SameCount t' ∧ (∀ d, d ≠ b.account.id → t'.member? d = t.member? d) ∧
      ∀ membership, t'.member? b.account.id = some membership →
        u.verdict t b.parents message = .ok () ∧
          membership = ⟨t.causalTime u.messages message⟩ := by
  obtain ⟨t, ht, ⟨_, rfl⟩ | ⟨hv, henr⟩⟩ := s.get?_proofs ht'
  · refine ⟨t', ht, ⟨rfl, rfl⟩, fun _ _ => rfl, ?_⟩
    intro membership hm
    have hmem : b.account.id ∈ t'.memberships := Dag.mem_iff_value?.2 ⟨membership, hm⟩
    exact absurd (h.members root t' _ ht hmem) s.population.fresh
  · refine ⟨t, ht, henr.sameCount, ?_, ?_⟩
    · intro d hd
      rw [henr.member?, if_neg hd]
    · intro membership hm
      rw [henr.member?, if_pos rfl] at hm
      cases hm
      exact ⟨hv, rfl⟩

theorem Built.sequences_mem {root anchor : Digest} {t : TimeProof} (b : Built u root anchor t)
    {d : Digest} : d ∈ t.sequences ↔ ∃ m ∈ u.messageList, m.sender = root ∧ m.id = d := by
  obtain ⟨t₀, sequences, hcount, same⟩ := b.counted
  rw [same.sequences, (TimeProof.recount_of_countAll hcount).mem_iff]
  have hout : d ∉ (TimeProof.start root anchor).sequences := Dag.not_mem_empty
  simp [hout, and_assoc]

/-- The time proof that an anchoring adds. -/
theorem Anchored.built {root anchor : Digest} (s : Anchored u root anchor u') (h : Linked u) :
    ∃ t, Built u root anchor t ∧ u'.proofs = u.proofs.insert root t := by
  obtain ⟨t, ht, hp⟩ := s.proofs
  obtain ⟨t', ht', hb⟩ := exists_buildTimeProof h.distinct root anchor
  rw [ht] at ht'
  cases ht'
  exact ⟨t, hb, hp⟩

theorem Anchored.linked {root anchor : Digest} (s : Anchored u root anchor u') (h : Linked u) :
    Linked u' := by
  obtain ⟨t, hb, hp⟩ := s.built h
  have hget : ∀ r t', u'.proofs.get? r = some t' →
      (r = root ∧ t' = t) ∨ u.proofs.get? r = some t' := by
    intro r t' ht'
    rw [hp, DigestMap.get?_insert] at ht'
    by_cases hr : r = root
    · rw [if_pos hr] at ht'
      cases ht'
      exact .inl ⟨hr, rfl⟩
    · rw [if_neg hr] at ht'
      exact .inr ht'
  constructor
  · rw [s.messages]; exact h.message_id
  · rw [s.population]; exact h.account_id
  · rw [s.population]; exact h.parents
  · rw [s.population]; exact h.genesis
  · rw [s.messages, s.population]; exact h.birthMessage
  · intro r t' ht'
    rcases hget r t' ht' with ⟨rfl, rfl⟩ | ht'
    · exact hb.root_eq
    · exact h.root r t' ht'
  · rw [s.messages]
    intro r t' d ht' hd
    rcases hget r t' ht' with ⟨rfl, rfl⟩ | ht'
    · obtain ⟨m, hm, _, rfl⟩ := hb.sequences_mem.1 hd
      exact Dag.mem_iff_value?.2 ⟨m, h.mem_messageList.1 hm⟩
    · exact h.counted r t' d ht' hd
  · rw [s.population]
    intro r t' d ht' hd
    rcases hget r t' ht' with ⟨rfl, rfl⟩ | ht'
    · rw [← Dag.mem_ids, show t'.memberships.ids = u.population.ids from hb.members] at hd
      exact Dag.mem_ids.1 hd
    · exact h.members r t' d ht' hd
  · intro r
    rw [Dag.mem_insert s.snapshots, hp, DigestMap.mem_insert, h.snapshots r]

theorem Transition.linked (s : Transition u u') (h : Linked u) : Linked u' := by
  cases s with
  | record s => exact s.linked h
  | birth s => exact s.linked h
  | anchor s => exact s.linked h

end Lineage.Universe
