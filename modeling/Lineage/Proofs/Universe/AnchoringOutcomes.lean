import Lineage.Proofs.Outcomes
import Lineage.Proofs.Universe.Snapshots

/-!
# When a time proof can be set up

A time proof is set up for any stored message whose sender roots none. No other condition can fail:
the sender is an account, its messages can be counted anew, all accounts can become members, and the
snapshot can be noted. On an account a time proof is set up for the first of its messages. The
universe has one time proof and one snapshot more afterwards, and is the same otherwise.
-/
namespace Lineage.Universe

/-- A stored message whose sender roots no time proof. -/
def Anchorable (u : Universe) (anchor : Digest) : Prop :=
  ∃ m, u.messages.value? anchor = some m ∧ m.sender ∉ u.proofs

/-- What stands against setting up a time proof for a message. -/
inductive AnchorFault (u : Universe) (anchor : Digest) : UniverseError → Prop where
  | missing (absent : anchor ∉ u.messages) : AnchorFault u anchor (.messageNotFound anchor)
  | taken {m : Message} (stored : u.messages.value? anchor = some m)
      (rooted : m.sender ∈ u.proofs) : AnchorFault u anchor (.timeProofAlreadyExists m.sender)

/-- The earliest stored message of a sender. -/
structure FirstBy (u : Universe) (sender : Digest) (m : Message) : Prop where
  sender_eq : m.sender = sender
  first : ∃ before after, u.messageList = before ++ m :: after ∧ ∀ n ∈ before, n.sender ≠ sender

/-- What stands against setting up a time proof on an account. -/
inductive SenderFault (u : Universe) (sender : Digest) : UniverseError → Prop where
  | stranger (unknown : sender ∉ u.population) : SenderFault u sender (.invalidSender sender)
  | silent (known : sender ∈ u.population) (none : ∀ m ∈ u.messageList, m.sender ≠ sender) :
      SenderFault u sender (.noMessagesFromSender sender)
  | first {m : Message} {e : UniverseError} (first : u.FirstBy sender m)
      (fault : AnchorFault u m.id e) : SenderFault u sender e

/-- The universe after a time proof has been set up. All accounts are members of it and noted in its
snapshot, which has all others as parents, and nothing that was there before has changed. -/
structure Augmented (u : Universe) (root anchor : Digest) (u' : Universe) : Prop where
  messages : u'.messages = u.messages
  population : u'.population = u.population
  proof : ∃ t, u'.proofs.get? root = some t ∧ Built u root anchor t
  others : ∀ r, r ≠ root → u'.proofs.get? r = u.proofs.get? r
  snapshots : ∃ s parents, u'.snapshots.vertices = u.snapshots.vertices ++ [⟨root, s, parents⟩] ∧
    (∀ a, a ∈ s ↔ a ∈ u.population) ∧ ∀ r, r ∈ parents ↔ r ∈ u.snapshots

variable {u u' : Universe} {anchor root sender : Digest} {m : Message} {e : UniverseError}

theorem Anchored.augmented (s : Anchored u root anchor u') (h : Linked u) :
    Augmented u root anchor u' := by
  obtain ⟨t, built, proofs⟩ := s.built h
  refine ⟨s.messages, s.population, ⟨t, ?proof, built⟩, ?others,
    _, _, Dag.vertices_insert s.snapshots, ?noted, ?below⟩
  case proof =>
    rw [proofs]
    exact DigestMap.get?_insert_self u.proofs root t
  case others =>
    intro r hr
    rw [proofs]
    exact DigestMap.get?_insert_of_ne u.proofs t hr
  case noted =>
    intro a
    rw [Snapshot.mem_ofList]
    exact Dag.mem_ids
  case below =>
    intro r
    rw [DigestSet.mem_ofList, Dag.mem_ids]

theorem AnchorFault.addTimeProof_eq (f : AnchorFault u anchor e) :
    u.addTimeProof anchor = (u, .error e) := by
  cases f with
  | missing absent => simp only [addTimeProof, Dag.value?_eq_none.2 absent]
  | taken stored rooted => simp only [addTimeProof, stored, if_pos rooted]

theorem anchorable_or_fault (u : Universe) (anchor : Digest) :
    u.Anchorable anchor ∨ ∃ e, AnchorFault u anchor e := by
  cases stored : u.messages.value? anchor with
  | none => exact .inr ⟨_, .missing (Dag.value?_eq_none.1 stored)⟩
  | some m =>
    by_cases rooted : m.sender ∈ u.proofs
    · exact .inr ⟨_, .taken stored rooted⟩
    · exact .inl ⟨m, stored, rooted⟩

theorem Reachable.addTimeProof_eq_ok (h : Reachable u) (a : u.Anchorable anchor) :
    (u.addTimeProof anchor).2 = .ok () := by
  obtain ⟨m, stored, fresh⟩ := a
  obtain ⟨u', anchored, -⟩ := h.exists_anchored stored fresh
  rw [anchored]

theorem Reachable.augmented (h : Reachable u) (stored : u.messages.value? anchor = some m)
    (fresh : m.sender ∉ u.proofs) : Augmented u m.sender anchor (u.addTimeProof anchor).1 := by
  obtain ⟨u', anchored, s⟩ := h.exists_anchored stored fresh
  rw [anchored]
  exact s.augmented h.linked

theorem FirstBy.find?_eq (f : u.FirstBy sender m) :
    u.messageList.find? (·.sender = sender) = some m := by
  obtain ⟨before, after, split, others⟩ := f.first
  refine List.find?_eq_some_iff_append.2 ⟨decide_eq_true f.sender_eq, before, after, split, ?_⟩
  intro n hn
  simpa using others n hn

/-- Who has sent a message is an account, so only a time proof that is there can stand against it. -/
theorem FirstBy.addTimeProofFor_eq (f : u.FirstBy sender m) (h : Reachable u) :
    u.addTimeProofFor sender = u.addTimeProof m.id := by
  have found := f.find?_eq
  have stored := h.linked.mem_messageList.1 (List.mem_of_find?_eq_some found)
  have known : sender ∈ u.population := f.sender_eq ▸ h.evolved.sender_mem stored
  simp only [addTimeProofFor, if_neg (not_not.2 known), found]

theorem SenderFault.addTimeProofFor_eq (f : SenderFault u sender e) (h : Reachable u) :
    u.addTimeProofFor sender = (u, .error e) := by
  cases f with
  | stranger unknown => rw [addTimeProofFor, if_pos unknown]
  | silent known none =>
    have unfound : u.messageList.find? (·.sender = sender) = Option.none :=
      List.find?_eq_none.2 fun n hn => by simpa using none n hn
    simp only [addTimeProofFor, if_neg (not_not.2 known), unfound]
  | first first fault => rw [first.addTimeProofFor_eq h, fault.addTimeProof_eq]

/-- The sender is unknown, or has sent nothing, or has sent a first message. -/
theorem firstBy_or_fault (u : Universe) (sender : Digest) :
    (∃ m, u.FirstBy sender m) ∨ ∃ e, SenderFault u sender e := by
  by_cases known : sender ∈ u.population
  swap
  · exact .inr ⟨_, .stranger known⟩
  cases found : u.messageList.find? (·.sender = sender) with
  | none =>
    have none := List.find?_eq_none.1 found
    exact .inr ⟨_, .silent known fun n hn => by simpa using none n hn⟩
  | some m =>
    obtain ⟨own, before, after, split, others⟩ := List.find?_eq_some_iff_append.1 found
    refine .inl ⟨m, of_decide_eq_true own, before, after, split, ?_⟩
    intro n hn
    simpa using others n hn

theorem anchorableFor_or_fault (u : Universe) (sender : Digest) :
    (∃ m, u.FirstBy sender m ∧ u.Anchorable m.id) ∨ ∃ e, SenderFault u sender e := by
  rcases firstBy_or_fault u sender with ⟨m, first⟩ | fault
  · rcases anchorable_or_fault u m.id with anchorable | ⟨e, fault⟩
    · exact .inl ⟨m, first, anchorable⟩
    · exact .inr ⟨e, .first first fault⟩
  · exact .inr fault

/-- Eve has sent a text, and there is no time proof but Adam's. -/
theorem exists_unanchored_eve : ∃ u v,
    Universe.create Sample.law Sample.genesis Sample.first = .ok u ∧
    u.deliver [Sample.sequel, Sample.reply] = .ok v ∧ Reachable v ∧
    v.messageList = [Sample.first, Sample.sequel, Sample.reply] ∧
    ∀ root, root ∈ v.proofs ↔ root = Sample.adamId := by
  obtain ⟨u, v, hu, hv⟩ := Sample.exists_answered
  obtain ⟨p, u₁, created⟩ := exists_created hu
  have start : Reachable u := .create hu
  have reachable : Reachable v := run_of_deliver hv ▸ start.run _
  obtain ⟨-, vertices, backdrop⟩ := deliver_eq_ok start.evolved (by decide) hv
  refine ⟨u, v, hu, hv, reachable, ?_, ?_⟩
  · rw [messageList, vertices, created.anchored.messages,
      Dag.vertices_insert created.recorded.messages]
    rfl
  · intro root
    have kept : v.snapshots = u.snapshots := congrArg Backdrop.snapshots backdrop
    rw [← reachable.linked.snapshots, kept, ← Dag.mem_ids, created.chained.ids]
    exact List.mem_singleton

/-- A time proof can be set up just for a stored message whose sender roots none, and nothing else
changes. For an account it comes to the same as for the first of its messages. -/
theorem anchoring_exact (h : Reachable u) :
    (∀ anchor,
      ((u.addTimeProof anchor).2 = .ok () ↔ u.Anchorable anchor) ∧
      (∀ e, (u.addTimeProof anchor).2 = .error e ↔ AnchorFault u anchor e) ∧
      (∀ e, AnchorFault u anchor e → (u.addTimeProof anchor).1 = u) ∧
      ∀ m, u.messages.value? anchor = some m → m.sender ∉ u.proofs →
        Augmented u m.sender anchor (u.addTimeProof anchor).1) ∧
    ∀ sender,
      ((u.addTimeProofFor sender).2 = .ok () ↔ ∃ m, u.FirstBy sender m ∧ u.Anchorable m.id) ∧
      (∀ e, (u.addTimeProofFor sender).2 = .error e ↔ SenderFault u sender e) ∧
      (∀ e, SenderFault u sender e → (u.addTimeProofFor sender).1 = u) ∧
      ∀ m, u.FirstBy sender m → u.addTimeProofFor sender = u.addTimeProof m.id := by
  constructor
  · intro anchor
    have cover : (∃ _ : Unit, u.Anchorable anchor) ∨ ∃ e, AnchorFault u anchor e :=
      (anchorable_or_fault u anchor).imp_left fun a => ⟨(), a⟩
    obtain ⟨succeeds, fails⟩ := eq_iff_of_cover cover (fun _ => h.addTimeProof_eq_ok)
      fun e fault => by rw [fault.addTimeProof_eq]
    refine ⟨succeeds (), fails, ?_, fun m => h.augmented⟩
    intro e fault
    rw [fault.addTimeProof_eq]
  · intro sender
    have cover : (∃ _ : Unit, ∃ m, u.FirstBy sender m ∧ u.Anchorable m.id) ∨
        ∃ e, SenderFault u sender e :=
      (anchorableFor_or_fault u sender).imp_left fun a => ⟨(), a⟩
    have ok : (∃ m, u.FirstBy sender m ∧ u.Anchorable m.id) →
        (u.addTimeProofFor sender).2 = .ok () := by
      rintro ⟨m, first, anchorable⟩
      rw [first.addTimeProofFor_eq h, h.addTimeProof_eq_ok anchorable]
    obtain ⟨succeeds, fails⟩ := eq_iff_of_cover cover (fun _ => ok)
      fun e fault => by rw [fault.addTimeProofFor_eq h]
    refine ⟨succeeds (), fails, ?_, fun m first => first.addTimeProofFor_eq h⟩
    intro e fault
    rw [fault.addTimeProofFor_eq h]

/-- A time proof can be set up for Eve's only text, also by her name, but not for Adam's second
text, nor on Abel, who has not been born. -/
theorem anchoring_exact_eve : ∃ v, Reachable v ∧
    v.FirstBy Sample.eveId Sample.reply ∧ v.Anchorable Sample.reply.id ∧
    Augmented v Sample.eveId Sample.reply.id (v.addTimeProofFor Sample.eveId).1 ∧
    (v.addTimeProof Sample.sequel.id).2 = .error (.timeProofAlreadyExists Sample.adamId) ∧
    (v.addTimeProof Sample.birth.id).2 = .error (.messageNotFound Sample.birth.id) := by
  obtain ⟨u, v, hu, hv, reachable, messages, rooted⟩ := exists_unanchored_eve
  obtain ⟨forMessage, forAccount⟩ := anchoring_exact reachable
  have stored : ∀ m ∈ v.messageList, v.messages.value? m.id = some m :=
    fun m => reachable.linked.mem_messageList.1
  rw [messages] at stored
  have first : v.FirstBy Sample.eveId Sample.reply :=
    ⟨rfl, [Sample.first, Sample.sequel], [], messages, by decide⟩
  have fresh : Sample.reply.sender ∉ v.proofs := by
    rw [rooted]
    decide
  have reply := stored Sample.reply (by decide)
  refine ⟨v, reachable, first, ⟨_, reply, fresh⟩, ?added, ?taken, ?missing⟩
  case added =>
    rw [(forAccount Sample.eveId).2.2.2 _ first]
    exact (forMessage _).2.2.2 _ reply fresh
  case taken =>
    have there : Sample.sequel.sender ∈ v.proofs := (rooted _).2 rfl
    exact ((forMessage _).2.1 _).2 (.taken (stored Sample.sequel (by decide)) there)
  case missing =>
    refine ((forMessage _).2.1 _).2 (.missing fun known => ?_)
    obtain ⟨m, hm⟩ := Dag.mem_iff_value?.1 known
    have same := reachable.linked.message_id _ m hm
    have listed : m ∈ v.messageList := reachable.linked.mem_messageList.2 (same ▸ hm)
    rw [messages] at listed
    have others : ∀ n ∈ [Sample.first, Sample.sequel, Sample.reply], n.id ≠ Sample.birth.id := by
      decide
    exact others m listed same

end Lineage.Universe
