import Lineage.Proofs.Dag.Ancestors
import Lineage.TimeProof

/-!
# Counting messages and taking in members

Counting a message fails only when it has been counted before, and enrolling an account only when
it is a member; either changes one graph of the time proof by one vertex. The causal time of a
stored message depends on the numbers of the messages before it, so it is the same ever after.
-/
namespace Lineage

namespace Steps

theorem foldl_max_le_iff {l : List Steps} {a k : Steps} :
    l.foldl max a ≤ k ↔ a ≤ k ∧ ∀ n ∈ l, n ≤ k := by
  induction l generalizing a with
  | nil => simp
  | cons n l ih =>
    have hmax : max a n ≤ k ↔ a ≤ k ∧ n ≤ k := by
      simp only [UInt64.le_iff_toNat_le, UInt64.toNat_max]
      omega
    rw [List.foldl_cons, ih, hmax, List.forall_mem_cons, and_assoc]

theorem foldl_max_mem (l : List Steps) (a : Steps) : l.foldl max a = a ∨ l.foldl max a ∈ l := by
  induction l generalizing a with
  | nil => exact .inl rfl
  | cons n l ih =>
    rw [List.foldl_cons]
    have hmax : max a n = n ∨ max a n = a := ite_eq_or_eq ..
    rcases ih (max a n) with heq | hin
    · rw [heq]
      rcases hmax with hn | ha
      · rw [hn]
        exact .inr (List.mem_cons_self ..)
      · exact .inl ha
    · exact .inr (List.mem_cons_of_mem _ hin)

end Steps

namespace TimeProof

variable {t t' : TimeProof}

/-- The messages of its own sender that a message refers to and that have been counted. -/
def countedReferences (t : TimeProof) (m : Message) : List Digest :=
  (m.ownReferences.map (·.message)).filter fun id => id ∈ t.sequences

/-- What counting a message makes of a time proof. -/
structure Extension (t : TimeProof) (m : Message) (t' : TimeProof) (sequence : Steps) : Prop where
  sequence_eq : sequence = 1 + t.latest (t.countedReferences m)
  sequences : t.sequences.insert ⟨m.id, sequence, .ofList (t.countedReferences m)⟩ =
    .ok t'.sequences
  maxSequence : t'.maxSequence = max t.maxSequence sequence
  root : t'.root = t.root
  anchor : t'.anchor = t.anchor
  memberships : t'.memberships = t.memberships

/-- Counting a message is one insertion. -/
theorem extend_eq (t : TimeProof) (m : Message) : t.extend m =
    (t.sequences.insert ⟨m.id, 1 + t.latest (t.countedReferences m),
      .ofList (t.countedReferences m)⟩).map fun s =>
        ({ t with
          sequences := s
          maxSequence := max t.maxSequence (1 + t.latest (t.countedReferences m)) },
          1 + t.latest (t.countedReferences m)) :=
  rfl

theorem extend_eq_ok_iff {m : Message} {sequence : Steps} :
    t.extend m = .ok (t', sequence) ↔ Extension t m t' sequence := by
  rw [extend_eq]
  constructor
  · intro h
    cases hs : t.sequences.insert ⟨m.id, 1 + t.latest (t.countedReferences m),
        .ofList (t.countedReferences m)⟩ with
    | error e => rw [hs] at h; cases h
    | ok s => rw [hs] at h; cases h; exact ⟨rfl, hs, rfl, rfl, rfl, rfl⟩
  · rintro ⟨rfl, hs, hm, hr, ha, hd⟩
    rw [hs]
    obtain ⟨root, anchor, greatest, sequences, memberships⟩ := t'
    simp_all [Except.map]

/-- Only a message that has been counted is not counted, because parents are counted messages. -/
theorem exists_extend {m : Message} (fresh : m.id ∉ t.sequences) :
    ∃ t' sequence, t.extend m = .ok (t', sequence) := by
  have known : ∀ p ∈ DigestSet.ofList (t.countedReferences m), p ∈ t.sequences := by
    intro p hp
    rw [DigestSet.mem_ofList, countedReferences, List.mem_filter] at hp
    exact of_decide_eq_true hp.2
  obtain ⟨s, hs⟩ := Dag.exists_insert
    (v := ⟨m.id, 1 + t.latest (t.countedReferences m), .ofList (t.countedReferences m)⟩) fresh known
  exact ⟨{ t with sequences := s, maxSequence := max t.maxSequence _ }, _,
    extend_eq_ok_iff.2 ⟨rfl, hs, rfl, rfl, rfl, rfl⟩⟩

theorem latest_congr {l : List Digest} (h : ∀ d ∈ l, t'.sequence? d = t.sequence? d) :
    t'.latest l = t.latest l := by
  rw [latest, latest, List.filterMap_congr h]

/-- The greatest number is the least one that none of the messages goes beyond. -/
theorem latest_le_iff {l : List Digest} {k : Steps} :
    t.latest l ≤ k ↔ ∀ d ∈ l, ∀ n, t.sequence? d = some n → n ≤ k := by
  have hzero : (0 : Steps) ≤ k := UInt64.le_iff_toNat_le.2 (Nat.zero_le _)
  rw [latest, Steps.foldl_max_le_iff]
  simp only [hzero, true_and, List.mem_filterMap, forall_exists_index, and_imp]
  constructor
  · intro h d hd n hn
    exact h n d hd hn
  · intro h n d hd hn
    exact h d hd n hn

theorem le_latest {l : List Digest} {d : Digest} {n : Steps} (hd : d ∈ l)
    (hn : t.sequence? d = some n) : n ≤ t.latest l :=
  latest_le_iff.1 (UInt64.le_refl _) d hd n hn

/-- Some message has the greatest number, unless none has a number or all of them have zero. -/
theorem latest_eq_zero_or (t : TimeProof) (l : List Digest) :
    t.latest l = 0 ∨ ∃ d ∈ l, t.sequence? d = some (t.latest l) :=
  (Steps.foldl_max_mem _ 0).imp_right List.mem_filterMap.1

section Extension

variable {m : Message} {sequence : Steps}

theorem Extension.mem_iff (h : Extension t m t' sequence) {d : Digest} :
    d ∈ t'.sequences ↔ d = m.id ∨ d ∈ t.sequences :=
  Dag.mem_insert h.sequences

theorem Extension.sequence?_self (h : Extension t m t' sequence) :
    t'.sequence? m.id = some sequence :=
  Dag.value?_insert_self h.sequences

theorem Extension.sequence?_of_ne (h : Extension t m t' sequence) {d : Digest} (hd : d ≠ m.id) :
    t'.sequence? d = t.sequence? d := by
  simp [sequence?, Dag.value?_insert h.sequences, hd]

end Extension

/-- Counts messages one after the other, and lists the numbers that they get. -/
def countAll (t : TimeProof) : List Message → Except Dag.InsertError (TimeProof × List Steps)
  | [] => .ok (t, [])
  | m :: rest =>
    match t.extend m with
    | .error e => .error e
    | .ok (t, sequence) =>
      match t.countAll rest with
      | .error e => .error e
      | .ok (t, sequences) => .ok (t, sequence :: sequences)

/-- Two time proofs have counted the same messages, with the same numbers. -/
structure SameCount (t s : TimeProof) : Prop where
  sequences : s.sequences = t.sequences
  maxSequence : s.maxSequence = t.maxSequence

theorem SameCount.symm {s : TimeProof} (h : SameCount t s) : SameCount s t :=
  ⟨h.sequences.symm, h.maxSequence.symm⟩

theorem SameCount.trans {s r : TimeProof} (h : SameCount t s) (h' : SameCount s r) :
    SameCount t r :=
  ⟨h'.sequences.trans h.sequences, h'.maxSequence.trans h.maxSequence⟩

theorem SameCount.sequence? {s : TimeProof} (h : SameCount t s) (d : Digest) :
    s.sequence? d = t.sequence? d := by
  rw [TimeProof.sequence?, TimeProof.sequence?, h.sequences]

section CountAll

variable {m : Message} {l : List Message} {sequences : List Steps}

theorem countAll_cons_eq_ok_iff : t.countAll (m :: l) = .ok (t', sequences) ↔
    ∃ t₁ sequence rest, t.extend m = .ok (t₁, sequence) ∧ t₁.countAll l = .ok (t', rest) ∧
      sequences = sequence :: rest := by
  rw [countAll]
  cases t.extend m with
  | error e => simp
  | ok r =>
    obtain ⟨t₁, sequence⟩ := r
    cases hl : t₁.countAll l with
    | error e => simp [hl]
    | ok r => simp [hl, eq_comm, Prod.ext_iff]

theorem countAll_append_singleton {t₁ : TimeProof} {sequence : Steps}
    (hl : t.countAll l = .ok (t₁, sequences)) (hm : t₁.extend m = .ok (t', sequence)) :
    t.countAll (l ++ [m]) = .ok (t', sequences ++ [sequence]) := by
  induction l generalizing t sequences with
  | nil =>
    cases hl
    exact countAll_cons_eq_ok_iff.2 ⟨t', sequence, [], hm, rfl, rfl⟩
  | cons x l ih =>
    obtain ⟨t₂, first, rest, hx, hrest, rfl⟩ := countAll_cons_eq_ok_iff.1 hl
    exact countAll_cons_eq_ok_iff.2 ⟨t₂, first, rest ++ [sequence], hx, ih hrest, rfl⟩

theorem exists_of_countAll_append {l' : List Message}
    (h : t.countAll (l ++ l') = .ok (t', sequences)) : ∃ t₁ before after,
      t.countAll l = .ok (t₁, before) ∧ t₁.countAll l' = .ok (t', after) := by
  induction l generalizing t sequences with
  | nil => exact ⟨t, [], sequences, rfl, h⟩
  | cons m l ih =>
    obtain ⟨t₂, first, rest, hm, hrest, rfl⟩ := countAll_cons_eq_ok_iff.1 h
    obtain ⟨t₁, before, after, hbefore, hafter⟩ := ih hrest
    exact ⟨t₁, first :: before, after,
      countAll_cons_eq_ok_iff.2 ⟨t₂, first, before, hm, hbefore, rfl⟩, hafter⟩

/-- The numbers that a message gets depend on what has been counted, and on nothing else. -/
theorem SameCount.extend {s : TimeProof} {sequence : Steps} (h : SameCount t s)
    (e : Extension t m t' sequence) : ∃ s', Extension s m s' sequence ∧ SameCount t' s' := by
  have hrefs : s.countedReferences m = t.countedReferences m := by
    rw [countedReferences, countedReferences, h.sequences]
  have hlatest : s.latest (s.countedReferences m) = t.latest (t.countedReferences m) := by
    rw [hrefs]
    exact latest_congr fun d _ => h.sequence? d
  refine ⟨{ s with sequences := t'.sequences, maxSequence := t'.maxSequence },
    ⟨?_, ?_, ?_, rfl, rfl, rfl⟩, rfl, rfl⟩
  · rw [hlatest]
    exact e.sequence_eq
  · rw [hrefs, h.sequences]
    exact e.sequences
  · rw [h.maxSequence]
    exact e.maxSequence

theorem SameCount.countAll {s : TimeProof} (h : SameCount t s)
    (hl : t.countAll l = .ok (t', sequences)) :
    ∃ s', s.countAll l = .ok (s', sequences) ∧ SameCount t' s' := by
  induction l generalizing t s sequences with
  | nil => cases hl; exact ⟨s, rfl, h⟩
  | cons m l ih =>
    obtain ⟨t₁, first, rest, hm, hrest, rfl⟩ := countAll_cons_eq_ok_iff.1 hl
    obtain ⟨s₁, hs₁, same⟩ := h.extend (extend_eq_ok_iff.1 hm)
    obtain ⟨s', hs', same'⟩ := ih same hrest
    exact ⟨s', countAll_cons_eq_ok_iff.2 ⟨s₁, first, rest, extend_eq_ok_iff.2 hs₁, hs', rfl⟩,
      same'⟩

/-- What counting several messages leaves as it was, and what has been counted afterwards. -/
structure Recount (t : TimeProof) (l : List Message) (t' : TimeProof) : Prop where
  root : t'.root = t.root
  anchor : t'.anchor = t.anchor
  memberships : t'.memberships = t.memberships
  mem_iff : ∀ d, d ∈ t'.sequences ↔ d ∈ t.sequences ∨ d ∈ l.map (·.id)

theorem recount_of_countAll (h : t.countAll l = .ok (t', sequences)) : Recount t l t' := by
  induction l generalizing t sequences with
  | nil => cases h; exact ⟨rfl, rfl, rfl, by simp⟩
  | cons m l ih =>
    obtain ⟨t₁, sequence, rest, hm, hl, rfl⟩ := countAll_cons_eq_ok_iff.1 h
    have first := extend_eq_ok_iff.1 hm
    have later := ih hl
    refine ⟨later.root.trans first.root, later.anchor.trans first.anchor,
      later.memberships.trans first.memberships, ?_⟩
    intro d
    rw [later.mem_iff, first.mem_iff, List.map_cons, List.mem_cons, or_comm (a := d = m.id),
      or_assoc]

/-- Different messages that have not been counted can all be counted. -/
theorem exists_countAll (distinct : (l.map (·.id)).Nodup)
    (fresh : ∀ m ∈ l, m.id ∉ t.sequences) :
    ∃ t' sequences, t.countAll l = .ok (t', sequences) := by
  induction l generalizing t with
  | nil => exact ⟨t, [], rfl⟩
  | cons m l ih =>
    rw [List.map_cons, List.nodup_cons] at distinct
    obtain ⟨t₁, sequence, hm⟩ := exists_extend (fresh m (List.mem_cons_self ..))
    have fresh' : ∀ x ∈ l, x.id ∉ t₁.sequences := by
      intro x hx hin
      rcases (extend_eq_ok_iff.1 hm).mem_iff.1 hin with hid | hin
      · exact distinct.1 (List.mem_map.2 ⟨x, hx, hid⟩)
      · exact fresh x (List.mem_cons_of_mem _ hx) hin
    obtain ⟨t', rest, hl⟩ := ih distinct.2 fresh'
    exact ⟨t', sequence :: rest, countAll_cons_eq_ok_iff.2 ⟨t₁, sequence, rest, hm, hl, rfl⟩⟩

/-- No later message changes the number of an earlier one. -/
theorem sequence?_of_countAll {d : Digest} {sequence : Steps} (hd : t.sequence? d = some sequence)
    (h : t.countAll l = .ok (t', sequences)) : t'.sequence? d = some sequence := by
  induction l generalizing t sequences with
  | nil => cases h; exact hd
  | cons m l ih =>
    obtain ⟨t₁, first, rest, hm, hl, rfl⟩ := countAll_cons_eq_ok_iff.1 h
    exact ih (Dag.value?_mono (extend_eq_ok_iff.1 hm).sequences hd) hl

/-- The numbers that are listed are those that the time proof then answers. -/
theorem map_sequence?_of_countAll (h : t.countAll l = .ok (t', sequences)) :
    l.map (fun m => t'.sequence? m.id) = sequences.map some := by
  induction l generalizing t sequences with
  | nil => cases h; rfl
  | cons m l ih =>
    obtain ⟨t₁, first, rest, hm, hl, rfl⟩ := countAll_cons_eq_ok_iff.1 h
    have hfirst : t₁.sequence? m.id = some first := (extend_eq_ok_iff.1 hm).sequence?_self
    rw [List.map_cons, List.map_cons, ih hl, sequence?_of_countAll hfirst hl]

end CountAll

/-- The time of a stored message depends on the numbers of stored messages only, whatever else is
stored. -/
theorem causalTime_congr {messages messages' : Dag Message}
    (hsub : ∀ v ∈ messages.newestFirst, v ∈ messages'.newestFirst)
    (keep : ∀ a ∈ messages, t'.sequence? a = t.sequence? a) {d : Digest} (hd : d ∈ messages) :
    t'.causalTime messages' d = t.causalTime messages d := by
  rw [causalTime, causalTime, keep d hd, Dag.ancestors_of_subset hsub hd]
  split
  · rfl
  · exact latest_congr fun a ha => keep a (Dag.mem_of_mem_ancestors ha)

/-- Counting a new message leaves the times of the stored ones. -/
theorem causalTime_extend {m : Message} {sequence : Steps} (h : Extension t m t' sequence)
    {messages : Dag Message} (fresh : m.id ∉ messages) {d : Digest} (hd : d ∈ messages) :
    t'.causalTime messages d = t.causalTime messages d := by
  refine causalTime_congr (fun _ => id) (fun a ha => h.sequence?_of_ne ?_) hd
  rintro rfl
  exact fresh ha

/-- Storing a new message leaves the times of those stored before. -/
theorem causalTime_insert {messages messages' : Dag Message} {v : Vertex Message}
    (h : messages.insert v = .ok messages') {d : Digest} (hd : d ∈ messages) :
    t.causalTime messages' d = t.causalTime messages d := by
  refine causalTime_congr (fun w hw => ?_) (fun _ _ => rfl) hd
  rw [Dag.newestFirst_insert h]
  exact List.mem_cons_of_mem _ hw

theorem SameCount.causalTime (h : SameCount t t') (messages : Dag Message) (d : Digest) :
    t'.causalTime messages d = t.causalTime messages d := by
  rw [TimeProof.causalTime, TimeProof.causalTime, h.sequence?]
  split
  · rfl
  · exact latest_congr fun a _ => h.sequence? a

/-- What enrolling an account makes of a time proof. -/
structure Enrolment (t : TimeProof) (account : Digest) (parents : List Digest) (bornAt : Steps)
    (t' : TimeProof) : Prop where
  memberships : t.memberships.insert
    ⟨account, ⟨bornAt⟩, .ofList (parents.filter fun id => id ∈ t.memberships)⟩ = .ok t'.memberships
  root : t'.root = t.root
  anchor : t'.anchor = t.anchor
  maxSequence : t'.maxSequence = t.maxSequence
  sequences : t'.sequences = t.sequences

variable {account : Digest} {parents : List Digest} {bornAt : Steps}

/-- Enrolling an account is one insertion. -/
theorem addMember_eq (t : TimeProof) (account : Digest) (parents : List Digest) (bornAt : Steps) :
    t.addMember account parents bornAt =
      (t.memberships.insert ⟨account, ⟨bornAt⟩,
        .ofList (parents.filter fun id => id ∈ t.memberships)⟩).map
          fun g => { t with memberships := g } :=
  rfl

theorem addMember_eq_ok_iff :
    t.addMember account parents bornAt = .ok t' ↔ Enrolment t account parents bornAt t' := by
  rw [addMember_eq]
  constructor
  · intro h
    cases hs : t.memberships.insert ⟨account, ⟨bornAt⟩,
        .ofList (parents.filter fun id => id ∈ t.memberships)⟩ with
    | error e => rw [hs] at h; cases h
    | ok s => rw [hs] at h; cases h; exact ⟨hs, rfl, rfl, rfl, rfl⟩
  · rintro ⟨hs, hr, ha, hm, hd⟩
    rw [hs]
    obtain ⟨root, anchor, greatest, sequences, memberships⟩ := t'
    simp_all [Except.map]

theorem exists_addMember (fresh : account ∉ t.memberships) (parents : List Digest)
    (bornAt : Steps) : ∃ t', t.addMember account parents bornAt = .ok t' := by
  have known : ∀ p ∈ DigestSet.ofList (parents.filter fun id => id ∈ t.memberships),
      p ∈ t.memberships := by
    intro p hp
    rw [DigestSet.mem_ofList, List.mem_filter] at hp
    exact of_decide_eq_true hp.2
  obtain ⟨s, hs⟩ := Dag.exists_insert
    (v := ⟨account, ⟨bornAt⟩, .ofList (parents.filter fun id => id ∈ t.memberships)⟩) fresh known
  exact ⟨{ t with memberships := s }, addMember_eq_ok_iff.2 ⟨hs, rfl, rfl, rfl, rfl⟩⟩

section Enrolment

theorem Enrolment.sameCount (h : Enrolment t account parents bornAt t') : SameCount t t' :=
  ⟨h.sequences, h.maxSequence⟩

theorem Enrolment.mem_iff (h : Enrolment t account parents bornAt t') {d : Digest} :
    d ∈ t'.memberships ↔ d = account ∨ d ∈ t.memberships :=
  Dag.mem_insert h.memberships

theorem Enrolment.member? (h : Enrolment t account parents bornAt t') (d : Digest) :
    t'.member? d = if d = account then some ⟨bornAt⟩ else t.member? d :=
  Dag.value?_insert h.memberships d

end Enrolment

end TimeProof

end Lineage
