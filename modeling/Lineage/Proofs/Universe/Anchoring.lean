import Lineage.Proofs.Universe.Transition

/-!
# Building a time proof from what is stored

A time proof that is set up late counts the stored messages of its root in the order in which they
came, and takes in all accounts in the order of their admission, each born at the time of its
birth message. Neither can fail when no id occurs twice.
-/
namespace Lineage

theorem TimeProof.SameCount.birthTime {t t' : TimeProof} (h : SameCount t t')
    (messages : Dag Message) (a : Account) : t'.birthTime messages a = t.birthTime messages a := by
  have he : t'.causalTime messages = t.causalTime messages := by
    funext d
    exact h.causalTime messages d
  rw [TimeProof.birthTime, TimeProof.birthTime, he]

namespace Universe

variable {u : Universe}

/-- A replay counts the messages of the root, and passes over all others. -/
theorem replay_eq {t : TimeProof} {root : Digest} (h : t.root = root) (l : List Message) :
    replay t l =
      match t.countAll (l.filter (·.sender = root)) with
      | .ok (t', _) => .ok t'
      | .error e => .error (.graph e) := by
  induction l generalizing t with
  | nil => rfl
  | cons m l ih =>
    rw [replay, h]
    by_cases hm : m.sender = root
    · rw [if_pos hm, List.filter_cons_of_pos (by simpa using hm), TimeProof.countAll]
      cases he : t.extend m with
      | error e => rfl
      | ok r =>
        obtain ⟨t₁, sequence⟩ := r
        have hroot := (TimeProof.extend_eq_ok_iff.1 he).root
        simp only
        rw [ih (hroot.trans h)]
        cases t₁.countAll (l.filter (·.sender = root)) with
        | error e => rfl
        | ok r => rfl
    · rw [if_neg hm, List.filter_cons_of_neg (by simpa using hm), ih h]

/-- What taking in a list of accounts makes of a time proof. -/
structure Intake (messages : Dag Message) (t : TimeProof) (vs : List (Vertex Resident))
    (t' : TimeProof) : Prop where
  root : t'.root = t.root
  anchor : t'.anchor = t.anchor
  sameCount : t.SameCount t'
  members : t'.members = t.members ++ vs.map (·.id)
  member? : ∀ d membership, t'.member? d = some membership ↔ t.member? d = some membership ∨
    ∃ v ∈ vs, v.id = d ∧ membership = ⟨t.birthTime messages v.value.account⟩

theorem exists_enrollAll (messages : Dag Message) {t : TimeProof} (vs : List (Vertex Resident))
    (distinct : (vs.map (·.id)).Nodup) (fresh : ∀ v ∈ vs, v.id ∉ t.memberships) :
    ∃ t', enrollAll messages t vs = .ok t' ∧ Intake messages t vs t' := by
  induction vs generalizing t with
  | nil => exact ⟨t, rfl, rfl, rfl, ⟨rfl, rfl⟩, by simp, by simp⟩
  | cons v vs ih =>
    rw [List.map_cons, List.nodup_cons] at distinct
    have hv := fresh v (List.mem_cons_self ..)
    obtain ⟨t₁, h₁⟩ := TimeProof.exists_addMember hv v.value.account.parentList
      (t.birthTime messages v.value.account)
    have one := TimeProof.addMember_eq_ok_iff.1 h₁
    have fresh' : ∀ w ∈ vs, w.id ∉ t₁.memberships := by
      intro w hw hin
      rcases one.mem_iff.1 hin with hid | hin
      · exact distinct.1 (List.mem_map.2 ⟨w, hw, hid⟩)
      · exact fresh w (List.mem_cons_of_mem _ hw) hin
    obtain ⟨t', hall, rest⟩ := ih distinct.2 fresh'
    have hborn : ∀ a, t₁.birthTime messages a = t.birthTime messages a :=
      one.sameCount.birthTime messages
    refine ⟨t', ?_, rest.root.trans one.root, rest.anchor.trans one.anchor,
      one.sameCount.trans rest.sameCount, ?_, ?_⟩
    · rw [enrollAll, h₁]
      exact hall
    · have hids : t₁.members = t.members ++ [v.id] := Dag.ids_insert one.memberships
      rw [rest.members, hids]
      simp
    · intro d membership
      rw [rest.member?, one.member?]
      simp only [List.exists_mem_cons_iff, hborn]
      by_cases hd : d = v.id
      · have hout : t.member? d = none := Dag.value?_eq_none.2 (hd ▸ hv)
        rw [if_pos hd, hout]
        simp [hd, eq_comm]
      · simp [hd, Ne.symm hd]

/-- A time proof that has been set up counts all messages of its root, and all accounts are its
members. -/
structure Built (u : Universe) (root anchor : Digest) (t : TimeProof) : Prop where
  root_eq : t.root = root
  anchor_eq : t.anchor = anchor
  counted : ∃ t₀ sequences, (TimeProof.start root anchor).countAll
    (u.messageList.filter (·.sender = root)) = .ok (t₀, sequences) ∧ t₀.SameCount t
  members : t.members = u.population.ids
  member? : ∀ d membership, t.member? d = some membership ↔
    ∃ a, u.population.account? d = some a ∧ membership = ⟨t.birthTime u.messages a⟩

theorem buildTimeProof_of_replay {root anchor : Digest} {t : TimeProof}
    (h : replay (.start root anchor) u.messageList = .ok t) :
    u.buildTimeProof root anchor = enrollAll u.messages t u.population.residents.vertices := by
  rw [buildTimeProof, h]
  rfl

theorem exists_buildTimeProof (distinct : (u.messageList.map (·.id)).Nodup)
    (root anchor : Digest) :
    ∃ t, u.buildTimeProof root anchor = .ok t ∧ Built u root anchor t := by
  have hfilter : ((u.messageList.filter (·.sender = root)).map (·.id)).Nodup :=
    distinct.sublist (List.filter_sublist.map _)
  obtain ⟨t₀, sequences, hcount⟩ := TimeProof.exists_countAll (t := .start root anchor) hfilter
    (by intro m _; exact Dag.not_mem_empty)
  have recount := TimeProof.recount_of_countAll hcount
  have hreplay : replay (.start root anchor) u.messageList = .ok t₀ := by
    rw [replay_eq (show (TimeProof.start root anchor).root = root from rfl), hcount]
  have hout : ∀ d, d ∉ t₀.memberships := by
    intro d
    rw [recount.memberships]
    exact Dag.not_mem_empty
  obtain ⟨t, hall, intake⟩ := exists_enrollAll u.messages (t := t₀)
    u.population.residents.vertices (Dag.nodup_ids _) (fun v _ => hout v.id)
  refine ⟨t, ?_, intake.root.trans recount.root, intake.anchor.trans recount.anchor,
    ⟨t₀, sequences, hcount, intake.sameCount⟩, ?_, ?_⟩
  · rw [buildTimeProof_of_replay hreplay, hall]
  · rw [intake.members, TimeProof.members, recount.memberships]
    rfl
  · intro d membership
    have hnone : t₀.member? d = none := Dag.value?_eq_none.2 (hout d)
    rw [intake.member?, hnone]
    simp only [intake.sameCount.birthTime, reduceCtorEq, false_or,
      Population.account?_eq_some_iff, Dag.mem_vertices]
    constructor
    · rintro ⟨v, hv, hid, hm⟩
      exact ⟨v.value.account, ⟨v, hv, hid, rfl⟩, hm⟩
    · rintro ⟨_, ⟨v, hv, hid, rfl⟩, hm⟩
      exact ⟨v, hv, hid, hm⟩

end Universe

end Lineage
