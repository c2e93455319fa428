import Lineage.Proofs.Universe.Citations
import Lineage.Proofs.Universe.Delivery
import Lineage.Proofs.Universe.Growth
import Mathlib.Order.Bounds.Basic

/-!
# Causal times follow a recursion

The causal time of a message that the root of a time proof has not sent is worked out at once, from
the numbers of all messages of the root among its ancestors. It is also the greatest causal time of
its ancestors, those of other senders included: whatever these have seen it has seen through them.
For a message of the root that does not hold, since its number may be less than times that it has
seen through others.
-/
namespace Lineage

namespace Universe

variable {u : Universe} {root a d : Digest} {t : TimeProof} {m : Message}

theorem Evolved.sequence?_eq_causalTime (h : Evolved u) (ht : u.proofs.get? root = some t)
    (hm : u.messages.value? d = some m) (own : m.sender = root) :
    t.sequence? d = some (t.causalTime u.messages d) := by
  rw [TimeProof.causalTime, (h.numbers ht).sequence?_eq hm own]

theorem Evolved.causalTime_eq_latest (h : Evolved u) (ht : u.proofs.get? root = some t)
    (hm : u.messages.value? d = some m) (other : m.sender ≠ root) :
    t.causalTime u.messages d = t.latest (u.messages.ancestors d).toList := by
  have uncounted : d ∉ t.sequences := by
    rw [(h.numbers ht).mem_iff]
    rintro ⟨x, hx, own⟩
    rw [hm] at hx
    cases hx
    exact other own
  have hnone : t.sequence? d = none := Dag.value?_eq_none.2 uncounted
  rw [TimeProof.causalTime, hnone]

/-- A message that the root has not sent is not earlier than what it knows of. -/
theorem Evolved.causalTime_le_of_knownTo (h : Evolved u) (ht : u.proofs.get? root = some t)
    (hm : u.messages.value? d = some m) (other : m.sender ≠ root) (hk : KnownTo u.messages a d) :
    t.causalTime u.messages a ≤ t.causalTime u.messages d := by
  have counted : ∀ b n, KnownTo u.messages b d → t.sequence? b = some n →
      n ≤ t.causalTime u.messages d := by
    intro b n hb hn
    rw [h.causalTime_eq_latest ht hm other]
    exact TimeProof.le_latest (h.mem_ancestors_iff.2 hb) hn
  obtain ⟨x, hx⟩ := Dag.mem_iff_value?.1 (h.mem_of_knownTo hk)
  by_cases own : x.sender = root
  · exact counted a _ hk (h.sequence?_eq_causalTime ht hx own)
  · rw [h.causalTime_eq_latest ht hx own, TimeProof.latest_le_iff]
    intro b hb n hn
    exact counted b n (.trans (h.mem_ancestors_iff.1 hb) hk) hn

/-- It is as early as something that it knows of, if there is anything. -/
theorem Evolved.exists_knownTo_causalTime_eq (h : Evolved u) (ht : u.proofs.get? root = some t)
    (hm : u.messages.value? d = some m) (other : m.sender ≠ root) (some_known : m.references ≠ []) :
    ∃ a, KnownTo u.messages a d ∧ t.causalTime u.messages a = t.causalTime u.messages d := by
  have hd := h.causalTime_eq_latest ht hm other
  rcases t.latest_eq_zero_or (u.messages.ancestors d).toList with hzero | ⟨a, ha, hlatest⟩
  · obtain ⟨r, hr⟩ := List.exists_mem_of_ne_nil _ some_known
    have hk : KnownTo u.messages r.message d := .single ⟨m, hm, r, hr, rfl⟩
    refine ⟨r.message, hk, UInt64.le_antisymm (h.causalTime_le_of_knownTo ht hm other hk) ?_⟩
    rw [hd, hzero]
    exact UInt64.le_iff_toNat_le.2 (Nat.zero_le _)
  · refine ⟨a, h.mem_ancestors_iff.1 ha, ?_⟩
    rw [hd, TimeProof.causalTime, hlatest]

theorem Evolved.causalTime_eq_zero (h : Evolved u) (ht : u.proofs.get? root = some t)
    (hm : u.messages.value? d = some m) (other : m.sender ≠ root) (none_known : m.references = []) :
    t.causalTime u.messages d = 0 := by
  rw [h.causalTime_eq_latest ht hm other]
  rcases t.latest_eq_zero_or (u.messages.ancestors d).toList with hzero | ⟨a, ha, _⟩
  · exact hzero
  · obtain ⟨_, _, _, hm', r, hr, _⟩ := Relation.TransGen.tail'_iff.1 (h.mem_ancestors_iff.1 ha)
    rw [hm] at hm'
    cases hm'
    rw [none_known] at hr
    cases hr

theorem Evolved.causalTime_le_maxSequence (h : Evolved u) (ht : u.proofs.get? root = some t)
    (hm : u.messages.value? d = some m) : t.causalTime u.messages d ≤ t.maxSequence := by
  by_cases own : m.sender = root
  · exact (h.numbers ht).bound d _ (h.sequence?_eq_causalTime ht hm own)
  · rw [h.causalTime_eq_latest ht hm own, TimeProof.latest_le_iff]
    intro a _ n hn
    exact (h.numbers ht).bound a n hn

/-- The causal time of a message of the root is its number, and that of any other is the greatest
one of all messages that it refers to directly or indirectly. None is beyond the greatest number. -/
theorem causalTime_recursive (h : Reachable u) (hroot : root ∈ u.proofs)
    (hm : u.message? d = some m) : ∃ n, u.causalTime? root d = some n ∧
      (m.sender = root → u.sequence? root d = some n) ∧
      (m.sender ≠ root →
        (m.references = [] → n = 0) ∧
        (m.references ≠ [] →
          IsGreatest {k | ∃ a, KnownTo u.messages a d ∧ u.causalTime? root a = some k} n) ∧
        ∀ a, KnownTo u.messages a d → ∃ k, u.causalTime? root a = some k ∧ k ≤ n) ∧
      n ≤ u.maxSequence root := by
  have evolved := h.evolved
  obtain ⟨t, ht⟩ := DigestMap.mem_iff_get?.1 hroot
  have time : ∀ a, KnownTo u.messages a d →
      u.causalTime? root a = some (t.causalTime u.messages a) :=
    fun a hk => causalTime?_eq ht (evolved.mem_of_knownTo hk)
  refine ⟨t.causalTime u.messages d, causalTime?_eq ht (Dag.mem_iff_value?.2 ⟨m, hm⟩), ?_, ?_, ?_⟩
  · intro own
    rw [sequence?_eq ht]
    exact evolved.sequence?_eq_causalTime ht hm own
  · intro other
    refine ⟨evolved.causalTime_eq_zero ht hm other, ?_, ?_⟩
    · intro some_known
      obtain ⟨a, hk, ha⟩ := evolved.exists_knownTo_causalTime_eq ht hm other some_known
      refine ⟨⟨a, hk, by rw [time a hk, ha]⟩, ?_⟩
      rintro k ⟨b, hb, hkb⟩
      rw [time b hb] at hkb
      cases hkb
      exact evolved.causalTime_le_of_knownTo ht hm other hb
    · intro a hk
      exact ⟨_, time a hk, evolved.causalTime_le_of_knownTo ht hm other hk⟩
  · rw [maxSequence_eq ht]
    exact evolved.causalTime_le_maxSequence ht hm

/-- Eve's text refers to Adam's first one, whose number bounds its time from below. -/
theorem causalTime_recursive_reply : ∃ u n, Reachable u ∧ Sample.adamId ∈ u.proofs ∧
    u.message? Sample.reply.id = some Sample.reply ∧
    u.causalTime? Sample.adamId Sample.reply.id = some n ∧
    IsGreatest {k | ∃ a, KnownTo u.messages a Sample.reply.id ∧
      u.causalTime? Sample.adamId a = some k} n := by
  obtain ⟨u, v, hu, hv⟩ := Sample.exists_answered
  obtain ⟨u', hu', _, told⟩ := Sample.exists_founded
  rw [hu] at hu'
  cases hu'
  obtain ⟨t, _, ht, _⟩ := Sample.found_of_isComplete told
  have start : Reachable u := .create hu
  have reachable : Reachable v := run_of_deliver hv ▸ start.run _
  have hroot : Sample.adamId ∈ v.proofs := by
    have before : Sample.adamId ∈ u.proofs :=
      (add_outcome start.linked Sample.birth).mem_proofs.1 (DigestMap.mem_iff_get?.2 ⟨t, ht⟩)
    obtain ⟨t₀, ht₀⟩ := DigestMap.mem_iff_get?.1 before
    obtain ⟨t₁, ht₁, _⟩ := (run_of_deliver hv ▸ start.evolves_run _).grows.proofs _ t₀ ht₀
    exact DigestMap.mem_iff_get?.2 ⟨t₁, ht₁⟩
  have hm : v.message? Sample.reply.id = some Sample.reply := by
    obtain ⟨_, vertices, _⟩ := deliver_eq_ok start.evolved (by decide) hv
    have stored : Sample.reply.vertex ∈ v.messages.vertices := by simp [vertices]
    exact Dag.value?_eq_some_iff.2 ⟨Sample.reply.vertex, Dag.mem_vertices.1 stored, rfl, rfl⟩
  obtain ⟨n, hn, _, other, _⟩ := causalTime_recursive reachable hroot hm
  exact ⟨v, n, reachable, hroot, hm, hn, (other (by decide)).2.1 (List.cons_ne_nil _ _)⟩

end Universe

end Lineage
