import Lineage.Proofs.Universe.Alike
import Lineage.Proofs.Universe.Runs

/-!
# Texts may come in any order

Some text messages are all accepted when each of them is, apart from what it refers to, in order,
when all that they refer to is stored or among them, and when each comes after those of them that
it refers to. Only the last depends on their order. What they leave behind is what was there, with
the same messages on top, so any two orders lead to universes that answer the same.
-/
namespace Lineage

/-- The vertex that a message is stored as. -/
def Message.vertex (m : Message) : Vertex Message :=
  ⟨m.id, m, .ofList (m.references.map (·.message))⟩

namespace Universe

variable {u u' v : Universe} {m : Message} {l l' : List Message}

/-- Takes in messages one after the other, up to the first one that is refused. -/
def deliver (u : Universe) : List Message → Except UniverseError Universe
  | [] => .ok u
  | m :: rest =>
    match u.add m with
    | (u, .ok ()) => u.deliver rest
    | (_, .error e) => .error e

/-- Each message comes after those that it refers to. -/
def InOrder (l : List Message) : Prop := l.Pairwise fun m n => ∀ r ∈ m.references, r.message ≠ n.id

instance (l : List Message) : Decidable (InOrder l) :=
  inferInstanceAs (Decidable (l.Pairwise fun m n => ∀ r ∈ m.references, r.message ≠ n.id))

/-- What messages have to fulfil in order to be accepted, whatever their order. -/
structure Deliverable (u : Universe) (l : List Message) : Prop where
  signed : ∀ m ∈ l, m.contentId = m.id ∧ ∃ a, u.population.account? m.sender = some a ∧
    m.verifySignature a.identity.key = .ok true
  fresh : ∀ m ∈ l, m.id ∉ u.messages
  distinct : (l.map (·.id)).Nodup
  known : ∀ m ∈ l, ∀ r ∈ m.references, r.message ≠ m.id ∧ ∃ target,
    (u.messages.value? r.message = some target ∨ target ∈ l ∧ target.id = r.message) ∧
      target.sender = r.sender

theorem Deliverable.perm (h : Deliverable u l) (perm : l.Perm l') : Deliverable u l' where
  signed := fun m hm => h.signed m (perm.mem_iff.2 hm)
  fresh := fun m hm => h.fresh m (perm.mem_iff.2 hm)
  distinct := (perm.map _).nodup_iff.1 h.distinct
  known := by
    intro m hm r hr
    obtain ⟨hne, target, hor, hsender⟩ := h.known m (perm.mem_iff.2 hm) r hr
    exact ⟨hne, target, hor.imp_right fun ⟨hmem, hid⟩ => ⟨perm.mem_iff.1 hmem, hid⟩, hsender⟩

theorem Recorded.vertices_eq (s : Recorded u m u') :
    u'.messages.vertices = u.messages.vertices ++ [m.vertex] :=
  Dag.vertices_insert s.messages

theorem deliver_cons_eq_ok_iff (h : Linked u) (text : m.body.kind = .text) :
    u.deliver (m :: l) = .ok v ↔ ∃ u', u.add m = (u', .ok ()) ∧ Recorded u m u' ∧
      u'.deliver l = .ok v := by
  have recorded := recorded_of_add_text h text
  rw [deliver]
  generalize u.add m = r at recorded ⊢
  obtain ⟨u', result⟩ := r
  cases result with
  | error e => simp
  | ok _ => simp [recorded rfl]

/-- Messages that are all accepted are a run of calls. -/
theorem run_of_deliver (accepted : u.deliver l = .ok v) : u.run (l.map .add) = v := by
  induction l generalizing u with
  | nil => cases accepted; rfl
  | cons m l ih =>
    rw [deliver] at accepted
    rw [List.map_cons, run, perform]
    generalize u.add m = r at accepted ⊢
    obtain ⟨u', result⟩ := r
    cases result with
    | error e => cases accepted
    | ok _ => exact ih accepted

/-- What is deliverable after a message was so before, together with it. -/
theorem Deliverable.cons (s : Recorded u m u') (h : Deliverable u' l) : Deliverable u (m :: l) := by
  have apart : ∀ n ∈ l, n.id ≠ m.id ∧ n.id ∉ u.messages := by
    intro n hn
    rw [← not_or, ← Dag.mem_insert s.messages]
    exact h.fresh n hn
  constructor
  · rw [List.forall_mem_cons]
    exact ⟨⟨s.contentId_eq, s.signed⟩, s.population ▸ h.signed⟩
  · rw [List.forall_mem_cons]
    exact ⟨s.fresh, fun n hn => (apart n hn).2⟩
  · rw [List.map_cons, List.nodup_cons, List.mem_map]
    exact ⟨fun ⟨n, hn, hid⟩ => (apart n hn).1 hid, h.distinct⟩
  · rw [List.forall_mem_cons]
    constructor
    · intro r hr
      obtain ⟨target, ht, hsender⟩ := s.references r hr
      exact ⟨Dag.ne_of_mem s.messages (s.reference_mem hr), target, .inl ht, hsender⟩
    · intro n hn r hr
      obtain ⟨hne, target, hor, hsender⟩ := h.known n hn r hr
      refine ⟨hne, target, ?_, hsender⟩
      rcases hor with ht | ⟨hmem, hid⟩
      · rw [Dag.value?_insert s.messages] at ht
        split at ht
        · next hd => cases ht; exact .inr ⟨List.mem_cons_self .., hd.symm⟩
        · exact .inl ht
      · exact .inr ⟨List.mem_cons_of_mem _ hmem, hid⟩

/-- What has just been stored refers to none of the messages that can still be delivered. -/
theorem InOrder.cons (s : Recorded u m u') (h : Deliverable u' l) (order : InOrder l) :
    InOrder (m :: l) := by
  refine List.pairwise_cons.2 ⟨?_, order⟩
  intro n hn r hr hid
  exact h.fresh n hn (hid ▸ Dag.mem_insert_of_mem s.messages (s.reference_mem hr))

/-- A first message that has been stored leaves the others deliverable. -/
theorem Deliverable.tail (s : Recorded u m u') (h : Deliverable u (m :: l)) : Deliverable u' l := by
  have distinct := List.nodup_cons.1 h.distinct
  refine ⟨?_, ?_, distinct.2, ?_⟩
  · intro n hn
    rw [s.population]
    exact h.signed n (List.mem_cons_of_mem _ hn)
  · intro n hn
    rw [Dag.mem_insert s.messages, not_or]
    refine ⟨?_, h.fresh n (List.mem_cons_of_mem _ hn)⟩
    intro hid
    exact distinct.1 (List.mem_map.2 ⟨n, hn, hid⟩)
  · intro n hn r hr
    obtain ⟨hne, target, hor, hsender⟩ := h.known n (List.mem_cons_of_mem _ hn) r hr
    refine ⟨hne, target, ?_, hsender⟩
    rcases hor with ht | ⟨hmem, hid⟩
    · exact .inl (Dag.value?_mono s.messages ht)
    · rcases List.mem_cons.1 hmem with rfl | hmem
      · exact .inl (hid ▸ Dag.value?_insert_self s.messages)
      · exact .inr ⟨hmem, hid⟩

/-- The first message has all that it refers to when it comes. -/
theorem Deliverable.validate_head (h : Deliverable u (m :: l)) (order : InOrder (m :: l)) :
    u.validate m = .ok () := by
  obtain ⟨hid, signed⟩ := h.signed m (List.mem_cons_self ..)
  refine validate_eq_ok_iff.2 ⟨h.fresh m (List.mem_cons_self ..), hid, signed, ?_⟩
  intro r hr
  obtain ⟨hne, target, hor, hsender⟩ := h.known m (List.mem_cons_self ..) r hr
  rcases hor with ht | ⟨hmem, htarget⟩
  · exact ⟨target, ht, hsender⟩
  · rcases List.mem_cons.1 hmem with rfl | hmem
    · exact absurd htarget.symm hne
    · exact absurd htarget.symm ((List.pairwise_cons.1 order).1 target hmem r hr)

/-- Messages that are accepted in order are accepted without the last ones. -/
theorem exists_deliver_of_append {l l' : List Message} (accepted : u.deliver (l ++ l') = .ok v) :
    ∃ w, u.deliver l = .ok w := by
  induction l generalizing u with
  | nil => exact ⟨u, rfl⟩
  | cons m l ih =>
    rw [List.cons_append, deliver] at accepted
    rw [deliver]
    split at accepted
    · next taken => exact ih accepted
    · cases accepted

/-- Texts are accepted just if they are deliverable and in order. -/
theorem exists_deliver_iff (h : Evolved u) (text : ∀ m ∈ l, m.body.kind = .text) :
    (∃ v, u.deliver l = .ok v) ↔ Deliverable u l ∧ InOrder l := by
  induction l generalizing u with
  | nil =>
    have none : Deliverable u [] := ⟨by simp, by simp, .nil, by simp⟩
    simp [deliver, none, InOrder]
  | cons m l ih =>
    rw [List.forall_mem_cons] at text
    simp only [deliver_cons_eq_ok_iff h.linked text.1]
    constructor
    · rintro ⟨v, u', _, s, hv⟩
      obtain ⟨deliverable, order⟩ := (ih (.step h (.record s)) text.2).1 ⟨v, hv⟩
      exact ⟨deliverable.cons s, order.cons s deliverable⟩
    · rintro ⟨deliverable, order⟩
      obtain ⟨u', hadd, s⟩ := add_text h.linked text.1 (deliverable.validate_head order)
      obtain ⟨v, hv⟩ := (ih (.step h (.record s)) text.2).2 ⟨deliverable.tail s, order.of_cons⟩
      exact ⟨v, u', hadd, s, hv⟩

/-- Texts come on top of what is stored, and change nothing but numbers besides. -/
theorem deliver_eq_ok (h : Evolved u) (text : ∀ m ∈ l, m.body.kind = .text)
    (accepted : u.deliver l = .ok v) : Evolved v ∧
      v.messages.vertices = u.messages.vertices ++ l.map Message.vertex ∧
      v.backdrop = u.backdrop := by
  induction l generalizing u with
  | nil => cases accepted; exact ⟨h, by simp, rfl⟩
  | cons m l ih =>
    rw [List.forall_mem_cons] at text
    obtain ⟨u', _, s, hrest⟩ := (deliver_cons_eq_ok_iff h.linked text.1).1 accepted
    obtain ⟨evolved, vertices, backdrop⟩ := ih (.step h (.record s)) text.2 hrest
    refine ⟨evolved, ?_, backdrop.trans s.backdrop⟩
    rw [vertices, s.vertices_eq, List.map_cons, List.append_assoc, List.singleton_append]

/-- Texts that are all accepted in one order are all accepted in any other that lets each come after
those that it refers to, and the two universes that come of it answer the same. -/
theorem deliver_perm (h : Reachable u) (text : ∀ m ∈ l, m.body.kind = .text)
    (accepted : u.deliver l = .ok v) (perm : l.Perm l') (order : InOrder l') :
    ∃ v', u.deliver l' = .ok v' ∧ Alike v v' ∧ SameAnswers v v' := by
  have text' : ∀ m ∈ l', m.body.kind = .text := fun m hm => text m (perm.mem_iff.2 hm)
  obtain ⟨deliverable, _⟩ := (exists_deliver_iff h.evolved text).1 ⟨v, accepted⟩
  obtain ⟨v', hv'⟩ := (exists_deliver_iff h.evolved text').2 ⟨deliverable.perm perm, order⟩
  obtain ⟨evolved, vertices, backdrop⟩ := deliver_eq_ok h.evolved text accepted
  obtain ⟨evolved', vertices', backdrop'⟩ := deliver_eq_ok h.evolved text' hv'
  have messages : v.messages.vertices.Perm v'.messages.vertices := by
    rw [vertices, vertices']
    exact (perm.map Message.vertex).append_left _
  have alike : Alike v v' := evolved.alike evolved' messages (backdrop'.trans backdrop.symm)
  exact ⟨v', hv', alike, alike.sameAnswers⟩

end Universe

namespace Sample

/-- A second text by Adam. -/
def sequel : Message where
  id := .ofNat 0x51998a0924cedc277156849059c1dda07df19232d74552527af1bcfe85b890e0
  sender := adamId
  body := .text []
  references := [.ofMessage first]
  signature := signature
    0x23552343b7751c063ec2bafd0e6cfcf1bee560188b5985381e34bb5dce76a617
    0x186a68fbc5d35a8bca5b9180f02b0f8bd8835e43ca1b7a1ce4c4977bda17bb24

/-- A text by Eve that does not refer to Adam's second one. -/
def reply : Message where
  id := .ofNat 0x49b84821806633a5060db74ff6207b495a5020728e51cee1093bb720a77e7656
  sender := eveId
  body := .text []
  references := [.ofMessage first]
  signature := signature
    0x7ae46465c173519089fa02c138be558a070893e3541da208ffe73cdcf308ef6d
    0xf6043f873eb1fad9efb28fd84f85b9d38a7a829ee9ecae097820fee91642be7a

/-- A third text by Adam, which refers to his second one. -/
def third : Message where
  id := .ofNat 0xc6cc8190524389def7afa1881e2f0eb3314271d2eceb0386a3614444059b5fda
  sender := adamId
  body := .text []
  references := [.ofMessage sequel]
  signature := signature
    0x17455078589c209227c64c3328803297d337521dfcf9a57bffde296a47be6f1f
    0x385a310dbde2e8a9a6ae1cb2c1810b9867d856b249679e96a231a83ce1b28b9a

/-- Whether a creation succeeds, and all three texts are accepted after it. -/
def isAnswered (r : Except UniverseError Universe) : Bool :=
  match r.bind (·.deliver [sequel, reply, third]) with
  | .error _ => false
  | .ok v => decide (v.sequence? adamId third.id = some 3)

theorem isAnswered_create : isAnswered (Universe.create law genesis first) = true := by
  decide +kernel

theorem exists_continued : ∃ u v, Universe.create law genesis first = .ok u ∧
    u.deliver [sequel, reply, third] = .ok v ∧ v.sequence? adamId third.id = some 3 := by
  have told := isAnswered_create
  generalize Universe.create law genesis first = r at told ⊢
  cases r with
  | error e => cases told
  | ok u =>
    rw [isAnswered, Except.bind] at told
    cases hv : u.deliver [sequel, reply, third] with
    | error e => rw [hv] at told; cases told
    | ok v => exact ⟨u, v, rfl, hv, by simpa [hv] using told⟩

theorem exists_answered : ∃ u v, Universe.create law genesis first = .ok u ∧
    u.deliver [sequel, reply] = .ok v := by
  obtain ⟨u, w, hu, hw, -⟩ := exists_continued
  obtain ⟨v, hv⟩ := Universe.exists_deliver_of_append (l := [sequel, reply]) hw
  exact ⟨u, v, hu, hv⟩

end Sample

namespace Universe

/-- Eve's text may come after Adam's third one as well, which has to come after his second one. In
both orders the third one has the number three. -/
theorem deliver_perm_reply : ∃ u v v', create Sample.law Sample.genesis Sample.first = .ok u ∧
    u.deliver [Sample.sequel, Sample.reply, Sample.third] = .ok v ∧
    u.deliver [Sample.sequel, Sample.third, Sample.reply] = .ok v' ∧ SameAnswers v v' ∧
    v.sequence? Sample.adamId Sample.third.id = some 3 ∧
    v'.sequence? Sample.adamId Sample.third.id = some 3 ∧
    ¬ InOrder [Sample.third, Sample.sequel, Sample.reply] := by
  obtain ⟨u, v, hu, hv, counted⟩ := Sample.exists_continued
  obtain ⟨v', hv', -, same⟩ := deliver_perm (.create hu) (by decide) hv
    (.cons Sample.sequel (.swap Sample.third Sample.reply [])) (by decide)
  refine ⟨u, v, v', hu, hv, hv', same, counted, ?_, by decide⟩
  rw [same.sequence?]
  exact counted

end Universe

end Lineage
