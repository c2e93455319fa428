import Lineage.Proofs.Universe.Delivery
import Lineage.Proofs.Universe.Growth

/-!
# A text that nothing refers to has no influence

A text by the root of a time proof advances the clock there, but only for what refers to it. A
birth that does not is judged as if the text were not there, and a time proof that is set up after
the text counts it last and has the same members, born at the same times. So it does not matter
whether the text comes before such a call or after it.
-/
namespace Lineage

namespace TimeProof

variable {extra : List Digest} {t s : TimeProof} {m : Message}

theorem Surplus.enrollAll {messages messages' : Dag Message} (h : Surplus extra t s)
    (vs : List (Vertex Resident))
    (born : ∀ v ∈ vs, s.birthTime messages' v.value.account = t.birthTime messages v.value.account) :
    InStep (Surplus extra) (Universe.enrollAll messages t vs)
      (Universe.enrollAll messages' s vs) := by
  induction vs generalizing t s with
  | nil => exact .ok h
  | cons v vs ih =>
    rw [List.forall_mem_cons] at born
    rw [Universe.enrollAll, Universe.enrollAll, born.1]
    rcases (h.addMember v.id v.value.account.parentList
      (t.birthTime messages v.value.account)).error_or_ok with ⟨e, ht, hs⟩ | ⟨t₁, s₁, ht, hs, h₁⟩
    · simp only [ht, hs]
      exact .error _
    · simp only [ht, hs]
      refine ih h₁ fun w hw => ?_
      rw [(addMember_eq_ok_iff.1 hs).sameCount.birthTime,
        (addMember_eq_ok_iff.1 ht).sameCount.birthTime]
      exact born.2 w hw

end TimeProof

namespace Universe

variable {u u' v : Universe} {m : Message} {anchor root : Digest}

/-- What neither bears nor refers to a message, nor sets up a time proof for it. -/
inductive Call.Avoids (d : Digest) : Call → Prop where
  | add {m : Message} (h : m.Avoids [d]) : Avoids d (.add m)
  | addTimeProof {anchor : Digest} (hne : anchor ≠ d) : Avoids d (.addTimeProof anchor)

/-- A replay that meets one more message at the end counts it last, if it is one of the root's. -/
theorem Recorded.replay (s : Recorded u m u') (h : Evolved u) (root anchor : Digest) :
    ∃ t t', replay (.start root anchor) u.messageList = .ok t ∧
      replay (.start root anchor) u'.messageList = .ok t' ∧
      (t' = t ∨ ∃ n, t.Extension m t' n) := by
  obtain ⟨t, sequences, hcount, numbers⟩ := h.exists_numbers root anchor
  have hroot : (TimeProof.start root anchor).root = root := rfl
  rw [replay_eq hroot, replay_eq hroot, hcount]
  by_cases hm : m.sender = root
  · obtain ⟨t', n, he⟩ := TimeProof.exists_extend (numbers.fresh s.fresh)
    rw [s.filter_own hm, TimeProof.countAll_append_singleton hcount he]
    exact ⟨t, t', rfl, rfl, .inr ⟨n, TimeProof.extend_eq_ok_iff.1 he⟩⟩
  · rw [s.filter_other hm, hcount]
    exact ⟨t, t, rfl, rfl, .inl rfl⟩

theorem Recorded.buildTimeProof (s : Recorded u m u') (h : Evolved u) (root anchor : Digest) :
    InStep (TimeProof.Surplus [m.id]) (u.buildTimeProof root anchor)
      (u'.buildTimeProof root anchor) := by
  obtain ⟨t, t', ht, ht', hcase⟩ := s.replay h root anchor
  rw [buildTimeProof_of_replay ht, buildTimeProof_of_replay ht', s.population]
  have surplus : TimeProof.Surplus [m.id] t t' := by
    rcases hcase with rfl | ⟨n, e⟩
    · exact .refl _ t'
    · exact e.surplus
  refine surplus.enrollAll _ fun v hv => s.birthTime_eq h.linked hcase (d := v.id) ?_
  exact Population.account?_eq_some_iff.2 ⟨v, Dag.mem_vertices.1 hv, rfl, rfl⟩

/-- A time proof is set up alike after a message for which it is not set up. -/
theorem Recorded.addTimeProof (s : Recorded u m u') (h : Evolved u) (hne : anchor ≠ m.id) :
    SameOutcome [m.id] (u.addTimeProof anchor) (u'.addTimeProof anchor) := by
  have hanchor : anchor ∉ [m.id] := by rwa [List.mem_singleton]
  rw [Universe.addTimeProof, Universe.addTimeProof, s.surplus.messages.value? hanchor]
  cases u.messages.value? anchor with
  | none => exact ⟨rfl, s.surplus⟩
  | some x =>
    simp only [s.mem_proofs, s.population, s.snapshots]
    split
    · exact ⟨rfl, s.surplus⟩
    · split
      · exact ⟨rfl, s.surplus⟩
      · rcases (s.buildTimeProof h x.sender anchor).error_or_ok with
          ⟨e, ht, ht'⟩ | ⟨t, t', ht, ht', surplus⟩
        · simp only [ht, ht']
          exact ⟨rfl, s.surplus⟩
        · simp only [ht, ht']
          split
          · exact ⟨rfl, s.surplus⟩
          · have built := s.surplus.insert_proof x.sender surplus
            exact ⟨rfl, built.messages, built.absent, rfl, rfl, built.proofs⟩

theorem GrowsTo.validate (grows : GrowsTo u v) (hv : u.validate m = .ok ())
    (fresh : m.id ∉ v.messages) : v.validate m = .ok () := by
  obtain ⟨_, hid, ⟨a, ha, hsigned⟩, references⟩ := validate_eq_ok_iff.1 hv
  refine validate_eq_ok_iff.2 ⟨fresh, hid, ⟨a, grows.kept.account? _ a ha, hsigned⟩, ?_⟩
  intro r hr
  obtain ⟨target, ht, hsender⟩ := references r hr
  exact ⟨target, grows.messages.value?_mono ht, hsender⟩

/-- A valid message stays so when another one is taken in. -/
theorem Linked.validate_add {t : Message} (h : Linked u) (valid : u.validate t = .ok ())
    (other : t.id ≠ m.id) : (u.add m).1.validate t = .ok () := by
  refine (perform_evolves h (.add m)).grows.validate valid fun there => ?_
  rcases (add_outcome h m).mem_messages there with same | old
  · exact other same
  · exact (validate_eq_ok_iff.1 valid).1 old

/-- A text comes to the same before and after a call that avoids it: it is accepted, the call gives
the same answer, and the universes differ in the order of messages only. -/
theorem text_commutes {t : Message} {c : Call} (h : Reachable u) (text : t.body.kind = .text)
    (accepted : (u.add t).2 = .ok ()) (avoids : c.Avoids t.id) :
    ((u.perform c).1.add t).2 = .ok () ∧ ((u.add t).1.perform c).2 = (u.perform c).2 ∧
      Alike ((u.add t).1.perform c).1 ((u.perform c).1.add t).1 ∧
      SameAnswers ((u.add t).1.perform c).1 ((u.perform c).1.add t).1 := by
  have s : Recorded u t (u.add t).1 := recorded_of_add_text h.linked text accepted
  have after : Reachable (u.add t).1 := h.perform (.add t)
  have outcome : SameOutcome [t.id] (u.perform c) ((u.add t).1.perform c) := by
    cases avoids with
    | add avoids => exact s.surplus.add avoids
    | addTimeProof hne => exact s.addTimeProof h.evolved hne
  have fresh : t.id ∉ (u.perform c).1.messages :=
    outcome.state.absent t.id (List.mem_singleton_self _)
  have valid := (perform_evolves h.linked c).grows.validate s.validate_eq fresh
  obtain ⟨w, hw, s'⟩ := add_text (h.perform c).linked text valid
  have stored : w.messages.get? t.id = ((u.add t).1.perform c).1.messages.get? t.id := by
    have hin : t.id ∈ (u.add t).1.messages := (Dag.mem_insert s.messages).2 (.inl rfl)
    rw [(perform_evolves after.linked c).grows.messages.get?_of_mem hin,
      Dag.get?_insert s.messages, Dag.get?_insert s'.messages, if_pos rfl, if_pos rfl]
  have messages : Dag.AgreeOff [] ((u.add t).1.perform c).1.messages w.messages :=
    .of_singleton (outcome.state.messages.symm.trans (.of_insert s'.messages)) stored
  have alike : Alike ((u.add t).1.perform c).1 w :=
    (after.perform c).evolved.alike ((h.perform c).evolved.trans (.single (.record s')))
      (Dag.perm_vertices_iff.2 messages) (s'.backdrop.trans outcome.state.backdrop.symm)
  rw [hw]
  exact ⟨rfl, outcome.result, alike, alike.sameAnswers⟩

/-- Adam's second text, by which his clock moves on, may come before or after Abel's birth. -/
theorem text_commutes_birth : ∃ u, create Sample.law Sample.genesis Sample.first = .ok u ∧
    (u.add Sample.sequel).2 = .ok () ∧ ((u.add Sample.birth).1.add Sample.sequel).2 = .ok () ∧
    ((u.add Sample.sequel).1.add Sample.birth).2 = (u.add Sample.birth).2 ∧
    SameAnswers ((u.add Sample.sequel).1.add Sample.birth).1
      ((u.add Sample.birth).1.add Sample.sequel).1 ∧
    Sample.isComplete (u.add Sample.birth).1 = true := by
  obtain ⟨u, v, hu, hv⟩ := Sample.exists_answered
  obtain ⟨u', hu', _, told⟩ := Sample.exists_founded
  rw [hu] at hu'
  cases hu'
  have reachable : Reachable u := .create hu
  obtain ⟨w, hw, _, _⟩ := (deliver_cons_eq_ok_iff reachable.linked rfl).1 hv
  have accepted : (u.add Sample.sequel).2 = .ok () := by rw [hw]
  have avoids : Call.Avoids Sample.sequel.id (.add Sample.birth) :=
    .add ⟨by decide, by decide⟩
  obtain ⟨later, answer, _, same⟩ := text_commutes reachable rfl accepted avoids
  exact ⟨u, hu, accepted, later, answer, same, told⟩

end Universe

end Lineage
