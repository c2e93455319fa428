import Lineage.Proofs.Universe.Citations
import Lineage.Proofs.Universe.Overflow
import Mathlib.Order.Bounds.Basic

/-!
# Numbers are lengths of chains

The number of a message is worked out in one step, from those messages of its sender that it refers
to and that have a number. All of them do, so that numbers count the longest chain of references
that leads up to a message through messages of its sender. Nothing that others do has a part in it.
-/
namespace Lineage

/-- A chain of stored messages of one sender, the newest first: each refers directly to the next in
the list. -/
inductive OwnChain (messages : Dag Message) (sender : Digest) : Digest → List Digest → Prop where
  | first {d : Digest} (sent : ∃ m, messages.value? d = some m ∧ m.sender = sender) :
      OwnChain messages sender d [d]
  | next {d p : Digest} {l : List Digest}
      (sent : ∃ m, messages.value? d = some m ∧ m.sender = sender)
      (cited : CitedIn messages p d) (rest : OwnChain messages sender p l) :
      OwnChain messages sender d (d :: l)

theorem OwnChain.sent {messages : Dag Message} {sender d : Digest} {l : List Digest}
    (c : OwnChain messages sender d l) : ∃ m, messages.value? d = some m ∧ m.sender = sender := by
  cases c with
  | first sent => exact sent
  | next sent _ _ => exact sent

namespace Universe

variable {u u' : Universe} {root d : Digest} {t : TimeProof} {m : Message}

/-- The numbers that a message refers to were given before it was counted, so the greatest of them
is less than the number of messages that have been counted. -/
theorem Evolved.toNat_latest_lt (h : Evolved u) (ht : u.proofs.get? root = some t)
    (hm : u.messages.value? d = some m) (own : m.sender = root) :
    (t.latest m.ownIds).toNat < (u.messageList.filter (·.sender = root)).length := by
  have hid : m.id = d := h.linked.message_id d m hm
  have hlist : m ∈ u.messageList.filter (·.sender = root) :=
    List.mem_filter.2 ⟨h.linked.mem_messageList.2 (hid ▸ hm), by simpa using own⟩
  obtain ⟨before, after, hsplit⟩ := List.mem_iff_append.1 hlist
  obtain ⟨t₀, sequences, hcount, same⟩ := (h.recounts root t ht).counted root
  rw [hsplit] at hcount
  obtain ⟨t₁, _, _, hbefore, hrest⟩ := TimeProof.exists_of_countAll_append hcount
  obtain ⟨t₂, n, _, he, hafter, _⟩ := TimeProof.countAll_cons_eq_ok_iff.1 hrest
  have e := TimeProof.extend_eq_ok_iff.1 he
  have hlatest : t.latest m.ownIds = t₁.latest (t₁.countedReferences m) := by
    have hkept := TimeProof.sequence?_of_countAll e.sequence?_self hafter
    rw [← same.sequence?, hid, (h.numbers ht).sequence?_eq hm own, e.sequence_eq] at hkept
    exact (UInt64.add_right_inj 1).1 (Option.some.inj hkept)
  have within := (TimeProof.within_start root root).countAll hbefore
  rw [Nat.zero_add] at within
  have hbound : (t.latest m.ownIds).toNat ≤ before.length := hlatest ▸ within.toNat_latest_le _
  rw [hsplit, List.length_append, List.length_cons]
  omega

/-- No number has wrapped around: as a natural number, too, it comes after the greatest one among
the messages of the root that a message refers to. -/
theorem Evolved.toNat_number (h : Evolved u) (few : u.messages.size ≤ Steps.maximum)
    (ht : u.proofs.get? root = some t) (hm : u.messages.value? d = some m)
    (own : m.sender = root) :
    t.sequence? d = some (1 + t.latest m.ownIds) ∧
      (1 + t.latest m.ownIds).toNat = 1 + (t.latest m.ownIds).toNat := by
  refine ⟨(h.numbers ht).sequence?_eq hm own, ?_⟩
  have hbefore := h.toNat_latest_lt ht hm own
  have hroom := @length_filter_messageList_le u root
  rw [UInt64.toNat_add, Nat.mod_eq_of_lt]
  · rfl
  · simp only [Steps.maximum, UInt64.size] at few
    simp only [UInt64.reduceToNat]
    omega

/-- No chain that leads up to a message is longer than its number. -/
theorem Evolved.length_le (h : Evolved u) (few : u.messages.size ≤ Steps.maximum)
    (ht : u.proofs.get? root = some t) {l : List Digest} (c : OwnChain u.messages root d l) :
    ∀ n, t.sequence? d = some n → l.length ≤ n.toNat := by
  induction c with
  | first sent =>
    obtain ⟨m, hm, own⟩ := sent
    obtain ⟨hnumber, hexact⟩ := h.toNat_number few ht hm own
    intro n hn
    rw [hnumber] at hn
    cases hn
    rw [hexact, List.length_singleton]
    omega
  | @next d p l sent cited rest ih =>
    obtain ⟨m, hm, own⟩ := sent
    obtain ⟨x, hx, hsender⟩ := rest.sent
    obtain ⟨hnumber, hexact⟩ := h.toNat_number few ht hm own
    have hown : p ∈ m.ownIds := (h.mem_ownIds_iff hm).2 ⟨cited, x, hx, hsender.trans own.symm⟩
    obtain ⟨hp, _⟩ := h.toNat_number few ht hx hsender
    have hshorter : l.length ≤ (t.latest m.ownIds).toNat :=
      (ih _ hp).trans (UInt64.le_iff_toNat_le.1 (TimeProof.le_latest hown hp))
    intro n hn
    rw [hnumber] at hn
    cases hn
    rw [hexact, List.length_cons]
    omega

/-- Some chain that leads up to a message is as long as its number. It goes on from a message referred
to, so this is by induction along the references. -/
theorem Evolved.exists_chain (h : Evolved u) (few : u.messages.size ≤ Steps.maximum)
    (ht : u.proofs.get? root = some t) :
    ∀ d ∈ u.messages, ∀ n, t.sequence? d = some n →
      ∃ l, OwnChain u.messages root d l ∧ l.length = n.toNat := by
  refine u.messages.grown.induction fun v hv ih => ?_
  intro n hn
  have hm : u.messages.value? v.id = some v.value := Dag.value?_eq_some_iff.2 ⟨v, hv, rfl, rfl⟩
  obtain ⟨m, hm', own⟩ := (h.numbers ht).mem_iff.1 (Dag.mem_iff_value?.2 ⟨n, hn⟩)
  rw [hm] at hm'
  cases hm'
  obtain ⟨hnumber, hexact⟩ := h.toNat_number few ht hm own
  rw [hnumber] at hn
  cases hn
  rcases t.latest_eq_zero_or v.value.ownIds with hzero | ⟨p, hp, hlatest⟩
  · refine ⟨[v.id], .first ⟨v.value, hm, own⟩, ?_⟩
    rw [hexact, hzero]
    rfl
  · obtain ⟨cited, _⟩ := (h.mem_ownIds_iff hm).1 hp
    have hparent : p ∈ v.parents := by
      obtain ⟨w, hw, hid, hin⟩ := h.citedIn_iff.1 cited
      rwa [Dag.eq_of_id_eq hw hv hid] at hin
    obtain ⟨l, c, hlength⟩ := ih p hparent _ hlatest
    refine ⟨v.id :: l, .next ⟨v.value, hm, own⟩ cited c, ?_⟩
    rw [hexact, List.length_cons, hlength, Nat.add_comm]

/-- The anchor of a time proof is a stored message of its root. -/
theorem Evolved.exists_anchor (h : Evolved u) : ∀ root t, u.proofs.get? root = some t →
    ∃ m, u.messages.value? t.anchor = some m ∧ m.sender = root := by
  induction h with
  | seed _ => intro root t ht; cases ht
  | step h s ih =>
    intro root t' ht'
    cases s with
    | record s =>
      obtain ⟨t, ht, hcase⟩ := s.get?_proofs ht'
      obtain ⟨m, hm, own⟩ := ih root t ht
      have hanchor : t'.anchor = t.anchor := by
        rcases hcase with ⟨_, rfl⟩ | ⟨_, _, e⟩
        · rfl
        · exact e.anchor
      exact ⟨m, hanchor ▸ Dag.value?_mono s.messages hm, own⟩
    | birth s =>
      obtain ⟨t, ht, hcase⟩ := s.get?_proofs ht'
      have hanchor : t'.anchor = t.anchor := by
        rcases hcase with ⟨_, rfl⟩ | ⟨_, e⟩
        · rfl
        · exact e.anchor
      rw [hanchor, s.messages]
      exact ih root t ht
    | anchor s =>
      obtain ⟨built, hbuilt, hproofs⟩ := s.built h.linked
      rw [hproofs, DigestMap.get?_insert] at ht'
      rw [s.messages]
      split at ht'
      · next hroot =>
        cases ht'
        rw [hbuilt.anchor_eq, hroot]
        exact s.anchored
      · exact ih root t' ht'

/-- The greatest number of a time proof is that of some message. -/
theorem Evolved.exists_maxSequence (h : Evolved u) (ht : u.proofs.get? root = some t) :
    ∃ d, t.sequence? d = some t.maxSequence := by
  have numbers := h.numbers ht
  rcases numbers.attained with hzero | hsome
  · obtain ⟨m, hm, own⟩ := h.exists_anchor root t ht
    obtain ⟨n, hn⟩ := Dag.mem_iff_value?.1 (numbers.mem_iff.2 ⟨m, hm, own⟩)
    have hle := numbers.bound _ n hn
    rw [hzero] at hle
    have hn0 : n = 0 := UInt64.le_antisymm hle (UInt64.le_iff_toNat_le.2 (Nat.zero_le _))
    exact ⟨t.anchor, by rw [hzero, ← hn0]; exact hn⟩
  · exact hsome

theorem filter_messageList_perform (h : Linked u) (c : Call)
    (others : ∀ m, c = .add m → m.sender ≠ root) :
    (u.perform c).1.messageList.filter (·.sender = root) =
      u.messageList.filter (·.sender = root) := by
  have anchored : ∀ {anchor : Digest} {r : Universe × Except UniverseError Unit},
      AnchorOutcome u anchor r → r.1.messageList = u.messageList := by
    intro anchor r outcome
    cases outcome with
    | refused _ => rfl
    | anchored s => rw [messageList, s.messages, messageList]
  cases c with
  | add m =>
    have other := others m rfl
    have outcome := add_outcome h m
    show (u.add m).1.messageList.filter (·.sender = root) = _
    generalize u.add m = r at outcome
    cases outcome with
    | refused _ => rfl
    | text s _ => exact s.filter_other other
    | rejected s _ _ => exact s.filter_other other
    | collided s _ _ => exact s.filter_other other
    | born s _ s' =>
      rw [messageList, s'.messages]
      exact s.filter_other other
  | addTimeProof anchor => exact congrArg _ (anchored (addTimeProof_outcome h anchor))
  | addTimeProofFor sender =>
    obtain ⟨anchor, outcome⟩ := addTimeProofFor_outcome h sender
    exact congrArg _ (anchored outcome)

/-- A run without messages of a root leaves what the root has sent. -/
theorem Evolved.filter_messageList_run (h : Evolved u) {calls : List Call}
    (others : ∀ m, .add m ∈ calls → m.sender ≠ root) :
    (u.run calls).messageList.filter (·.sender = root) =
      u.messageList.filter (·.sender = root) := by
  induction calls generalizing u with
  | nil => rfl
  | cons c rest ih =>
    have after : Evolved (u.perform c).1 := h.trans (perform_evolves h.linked c)
    have later := ih after fun m hm => others m (List.mem_cons_of_mem _ hm)
    have now := filter_messageList_perform h.linked c
      fun m hm => others m (hm ▸ List.mem_cons_self ..)
    exact later.trans now

/-- The number of a message is the length of a longest chain of messages of the root that refer to
each other. With fewer than 2⁶⁴ messages no addition overflows on the way there. -/
theorem sequence_longest_chain (h : Reachable u) (few : u.messageCount < UInt64.size)
    (hroot : root ∈ u.proofs) :
    (∀ d, (∃ n, u.sequence? root d = some n) ↔ ∃ m, u.message? d = some m ∧ m.sender = root) ∧
    (∀ d n, u.sequence? root d = some n →
      IsGreatest {k | ∃ l, OwnChain u.messages root d l ∧ l.length = k} n.toNat) ∧
    IsGreatest {n | ∃ d, u.sequence? root d = some n} (u.maxSequence root) ∧
    (u.maxSequence root).toNat ≤ (u.messageList.filter (·.sender = root)).length ∧
    (∀ v calls, Evolved v → v.run calls = u → ¬ v.OverflowsAlong calls) ∧
    ∀ calls, (∀ m, .add m ∈ calls → m.sender ≠ root) →
      (u.run calls).maxSequence root = u.maxSequence root ∧
      ∀ d, (u.run calls).sequence? root d = u.sequence? root d := by
  have evolved := h.evolved
  have room : u.messages.size ≤ Steps.maximum := Nat.le_pred_of_lt few
  obtain ⟨t, ht⟩ := DigestMap.mem_iff_get?.1 hroot
  have numbers := evolved.numbers ht
  obtain ⟨top, htop⟩ := evolved.exists_maxSequence ht
  simp only [sequence?_eq ht, maxSequence_eq ht]
  refine ⟨?_, ?_, ⟨⟨top, htop⟩, ?_⟩, evolved.within ht top _ htop, ?_, ?_⟩
  · intro d
    exact Dag.mem_iff_value?.symm.trans numbers.mem_iff
  · intro d n hn
    obtain ⟨m, hm, _⟩ := numbers.mem_iff.1 (Dag.mem_iff_value?.2 ⟨n, hn⟩)
    refine ⟨evolved.exists_chain room ht d (Dag.mem_iff_value?.2 ⟨m, hm⟩) n hn, ?_⟩
    rintro k ⟨l, c, rfl⟩
    exact evolved.length_le room ht c n hn
  · rintro n ⟨d, hn⟩
    exact numbers.bound d n hn
  · rintro v calls start rfl
    exact start.not_overflowsAlong room
  · intro calls others
    have after : Evolved (u.run calls) := evolved.trans (evolved.evolves_run calls)
    obtain ⟨t', ht', _⟩ := (evolved.evolves_run calls).grows.proofs root t ht
    have same := (evolved.recounts root t ht).sameCount (after.recounts root t' ht')
      (evolved.filter_messageList_run others)
    rw [maxSequence_eq ht']
    refine ⟨same.maxSequence, fun d => ?_⟩
    rw [sequence?_eq ht', same.sequence?]

/-- The chain from the first message to that of Abel's birth leads up to its number. -/
theorem sequence_longest_chain_birth : ∃ u n, Reachable u ∧ u.messageCount < UInt64.size ∧
    u.sequence? Sample.adamId Sample.birth.id = some n ∧
    OwnChain u.messages Sample.adamId Sample.birth.id [Sample.birth.id, Sample.first.id] ∧
    IsGreatest {k | ∃ l, OwnChain u.messages Sample.adamId Sample.birth.id l ∧ l.length = k}
      n.toNat := by
  obtain ⟨u₀, hu₀, _, told⟩ := Sample.exists_founded
  obtain ⟨t, _, ht, _, _, _, hb⟩ := Sample.found_of_isComplete told
  have reachable : Reachable (u₀.perform (.add Sample.birth)).1 := .perform (.create hu₀) _
  have few : (u₀.add Sample.birth).1.messageCount < UInt64.size := by
    obtain ⟨p, hp, hu⟩ := create_eq_ok hu₀
    have start : Evolved (seed p) := .seed (Population.founding_of_ofGenesis hp)
    have small := start.size_run_le [.add Sample.first, .addTimeProof Sample.first.id,
      .add Sample.birth]
    simp only [run, perform, ← hu] at small
    exact Nat.lt_of_le_of_lt small (show 0 + 3 < UInt64.size by decide)
  obtain ⟨numbered, longest, _⟩ :=
    sequence_longest_chain reachable few (DigestMap.mem_iff_get?.2 ⟨t, ht⟩)
  obtain ⟨n, hn⟩ := (numbered Sample.birth.id).2 ⟨Sample.birth, hb, rfl⟩
  refine ⟨_, n, reachable, few, hn, ?_, longest _ n hn⟩
  obtain ⟨v, hv, hid, hvalue⟩ := Dag.value?_eq_some_iff.1 hb
  have cited : Message.Reference.ofMessage Sample.first ∈ v.value.references := by
    rw [hvalue]
    exact List.mem_singleton_self _
  obtain ⟨_, target, htarget, hsender⟩ :=
    (reachable.evolved.authentic v hv).references _ cited
  exact .next ⟨_, hb, rfl⟩ ⟨_, hb, _, List.mem_singleton_self _, rfl⟩
    (.first ⟨target, htarget, hsender⟩)

end Universe

end Lineage
