import Lineage.Proofs.Universe.Numbering
import Lineage.Proofs.Universe.Surplus

/-!
# Universes that differ in the order of messages only

No question to a universe tells in which order its messages came: a number, a causal time and a
greatest number depend on what is stored alone. So two universes answer the same as soon as they
have the same messages, and have the same accounts, snapshots and members of time proofs.
-/
namespace Lineage

namespace TimeProof

variable {t s : TimeProof}

/-- Two time proofs differ at most in the order in which they have counted. -/
structure Alike (t s : TimeProof) : Prop where
  root : s.root = t.root
  anchor : s.anchor = t.anchor
  maxSequence : s.maxSequence = t.maxSequence
  sequences : t.sequences.vertices.Perm s.sequences.vertices
  memberships : s.memberships = t.memberships

/-- A time proof without its numbers. -/
def uncounted (t : TimeProof) : TimeProof := { t with maxSequence := 0, sequences := ∅ }

theorem uncounted_eq_iff : s.uncounted = t.uncounted ↔
    s.root = t.root ∧ s.anchor = t.anchor ∧ s.memberships = t.memberships := by
  simp [uncounted]

namespace Alike

theorem sequence? (h : Alike t s) (d : Digest) : s.sequence? d = t.sequence? d :=
  (Dag.perm_vertices_iff.1 h.sequences).value? List.not_mem_nil

theorem member? (h : Alike t s) (d : Digest) : s.member? d = t.member? d := by
  rw [TimeProof.member?, h.memberships, TimeProof.member?]

theorem causalTime (h : Alike t s) {g g' : Dag Message} (perm : g.vertices.Perm g'.vertices)
    {d : Digest} (hd : d ∈ g) : s.causalTime g' d = t.causalTime g d := by
  have hsub : ∀ v ∈ g.newestFirst, v ∈ g'.newestFirst :=
    fun v hv => Dag.mem_vertices.1 (perm.subset (Dag.mem_vertices.2 hv))
  exact causalTime_congr hsub (fun a _ => h.sequence? a) hd

end Alike

end TimeProof

namespace Universe

variable {u v : Universe}

/-- Two universes differ at most in the order of their messages. -/
structure Alike (u v : Universe) : Prop where
  messages : u.messages.vertices.Perm v.messages.vertices
  population : v.population = u.population
  snapshots : v.snapshots = u.snapshots
  proofs : ∀ root, Option.Rel TimeProof.Alike (u.proofs.get? root) (v.proofs.get? root)

/-- What a universe holds besides messages and numbers. -/
structure Backdrop where
  population : Population
  snapshots : Dag Snapshot
  proofs : Digest → Option TimeProof

def backdrop (u : Universe) : Backdrop :=
  ⟨u.population, u.snapshots, fun root => (u.proofs.get? root).map TimeProof.uncounted⟩

theorem Surplus.backdrop {extra : List Digest} (h : Surplus extra u v) :
    v.backdrop = u.backdrop := by
  have hproofs : ∀ root, (v.proofs.get? root).map TimeProof.uncounted =
      (u.proofs.get? root).map TimeProof.uncounted := by
    intro root
    rcases none_or_some_of_rel (h.proofs root) with ⟨hu, hv⟩ | ⟨t, s, hu, hv, ts⟩
    · rw [hu, hv]
    · rw [hu, hv, Option.map_some, Option.map_some,
        TimeProof.uncounted_eq_iff.2 ⟨ts.root, ts.anchor, ts.memberships⟩]
  rw [Universe.backdrop, Universe.backdrop, h.population, h.snapshots, funext hproofs]

/-- A message that is stored and counted leaves everything else. -/
theorem Recorded.backdrop {m : Message} (s : Recorded u m v) : v.backdrop = u.backdrop :=
  s.surplus.backdrop

/-- The messages and what is behind them determine a universe up to the order of messages. -/
theorem Evolved.alike (hu : Evolved u) (hv : Evolved v)
    (messages : u.messages.vertices.Perm v.messages.vertices) (same : v.backdrop = u.backdrop) :
    Alike u v := by
  refine ⟨messages, congrArg Backdrop.population same, congrArg Backdrop.snapshots same, ?_⟩
  intro root
  have hroot : (v.proofs.get? root).map TimeProof.uncounted =
      (u.proofs.get? root).map TimeProof.uncounted := congrFun (congrArg Backdrop.proofs same) root
  cases ht : u.proofs.get? root with
  | none =>
    rw [ht, Option.map_none, Option.map_eq_none_iff] at hroot
    rw [hroot]
    exact .none
  | some t =>
    rw [ht, Option.map_some, Option.map_eq_some_iff] at hroot
    obtain ⟨s, hs, heq⟩ := hroot
    obtain ⟨root_eq, anchor_eq, memberships_eq⟩ := TimeProof.uncounted_eq_iff.1 heq
    have numbers := hu.numbers ht
    have numbers' := hv.numbers hs
    have parents : ∀ x ∈ u.messages.newestFirst, ∀ r ∈ x.value.references,
        r.message ∈ x.parents :=
      fun x hx r hr => ((hu.authentic x hx).parents r.message).2 ⟨r, hr, rfl⟩
    have agree := numbers.agree numbers' (Dag.perm_vertices_iff.1 messages) parents
    rw [hs]
    exact .some ⟨root_eq, anchor_eq, UInt64.le_antisymm
      (numbers'.maxSequence_le numbers agree.symm) (numbers.maxSequence_le numbers' agree),
      Dag.perm_vertices_iff.2 agree, memberships_eq⟩

/-- All answers that two universes have in common if only the order of messages differs. -/
structure SameAnswers (u v : Universe) : Prop where
  population : v.population = u.population
  isValid : v.isValid = u.isValid
  message? : v.message? = u.message?
  account? : v.account? = u.account?
  messageCount : v.messageCount = u.messageCount
  maxSequence : v.maxSequence = u.maxSequence
  sequence? : v.sequence? = u.sequence?
  causalTime? : v.causalTime? = u.causalTime?
  isAlive : v.isAlive = u.isAlive
  roots : v.roots = u.roots
  anchor : ∀ root, (v.proofs.get? root).map (·.anchor) = (u.proofs.get? root).map (·.anchor)
  members : ∀ root, (v.proofs.get? root).map (·.members) = (u.proofs.get? root).map (·.members)
  member? : ∀ root account, (v.proofs.get? root).bind (·.member? account) =
    (u.proofs.get? root).bind (·.member? account)
  counted : ∀ root, (v.proofs.get? root).map (·.size) = (u.proofs.get? root).map (·.size)
  snapshot? : v.snapshot? = u.snapshot?
  snapshotParents : v.snapshotParents = u.snapshotParents

namespace Alike

theorem map_proof (h : Alike u v) {β : Type} {f : TimeProof → β}
    (same : ∀ t s, TimeProof.Alike t s → f s = f t) (root : Digest) :
    (v.proofs.get? root).map f = (u.proofs.get? root).map f := by
  rcases none_or_some_of_rel (h.proofs root) with ⟨hu, hv⟩ | ⟨t, s, hu, hv, ts⟩
  · rw [hu, hv]
  · rw [hu, hv, Option.map_some, Option.map_some, same t s ts]

theorem bind_proof (h : Alike u v) {β : Type} {f g : TimeProof → Option β}
    (same : ∀ t s, TimeProof.Alike t s → g s = f t) (root : Digest) :
    (v.proofs.get? root).bind g = (u.proofs.get? root).bind f := by
  rcases none_or_some_of_rel (h.proofs root) with ⟨hu, hv⟩ | ⟨t, s, hu, hv, ts⟩
  · rw [hu, hv]
    rfl
  · rw [hu, hv]
    exact same t s ts

theorem mem_messages (h : Alike u v) (d : Digest) : d ∈ v.messages ↔ d ∈ u.messages :=
  (Dag.perm_vertices_iff.1 h.messages).mem_iff List.not_mem_nil

theorem isAlive (h : Alike u v) (root account : Digest) :
    v.isAlive root account = u.isAlive root account := by
  rw [Universe.isAlive, Universe.isAlive, h.population]
  rcases none_or_some_of_rel (h.proofs root) with ⟨hu, hv⟩ | ⟨t, s, hu, hv, ts⟩
  · rw [hu, hv]
  · simp only [hu, hv, ts.member?, ts.maxSequence]

theorem sameAnswers (h : Alike u v) : SameAnswers u v where
  population := h.population
  isValid := by
    funext d
    rw [Universe.isValid, h.population, Universe.isValid]
  message? := by
    funext d
    exact (Dag.perm_vertices_iff.1 h.messages).value? List.not_mem_nil
  account? := by
    funext d
    rw [Universe.account?, h.population, Universe.account?]
  messageCount := Dag.size_of_perm h.messages
  maxSequence := by
    funext root
    rw [Universe.maxSequence, h.map_proof fun _ _ ts => ts.maxSequence, Universe.maxSequence]
  sequence? := by
    funext root d
    exact h.bind_proof (fun _ _ ts => ts.sequence? d) root
  causalTime? := by
    funext root d
    refine h.bind_proof (fun t s ts => ?_) root
    by_cases hd : d ∈ u.messages
    · rw [if_pos hd, if_pos ((h.mem_messages d).2 hd), ts.causalTime h.messages hd]
    · rw [if_neg hd, if_neg fun h' => hd ((h.mem_messages d).1 h')]
  isAlive := by
    funext root account
    exact h.isAlive root account
  roots := by
    refine DigestMap.keys_congr fun root => ?_
    rw [DigestMap.mem_iff_get?, DigestMap.mem_iff_get?]
    simp only [← Option.isSome_iff_exists, ← Option.isSome_map (f := fun _ : TimeProof => ()),
      h.map_proof (f := fun _ => ()) fun _ _ _ => rfl]
  anchor := h.map_proof fun _ _ ts => ts.anchor
  members := h.map_proof fun t s ts => by rw [TimeProof.members, ts.memberships, TimeProof.members]
  member? := by
    intro root account
    exact h.bind_proof (fun _ _ ts => ts.member? account) root
  counted := h.map_proof fun _ _ ts => Dag.size_of_perm ts.sequences
  snapshot? := by
    funext root
    rw [Universe.snapshot?, h.snapshots, Universe.snapshot?]
  snapshotParents := by
    funext root
    rw [Universe.snapshotParents, h.snapshots, Universe.snapshotParents]

end Alike

end Universe

end Lineage
