import Lineage.Proofs.Law.Windows
import Lineage.Proofs.Universe.CausalTimes
import Lineage.Proofs.Universe.Chains

/-!
# Death is final

Whether an account is alive in a time proof is judged by the greatest number there, and whether it
may become a parent by the time of the message of the birth. No message is later than the greatest
number, and some message is as late. So an account is alive just as long as no message has come too
late for it. Numbers do not fall, the time of a birth and the lifetime stay, and an account that was
left out of a time proof does not become a member later. So an account that is not alive never will
be.
-/
namespace Lineage

namespace Universe

variable {u u' : Universe} {root a d : Digest} {t : TimeProof}

/-- Whether the law of a time proof rejects an account as an expired parent of what is born in a
message. -/
def ExpiredAt (u : Universe) (t : TimeProof) (message account : Digest) : Prop :=
  ∃ born lifecycle now, Law.checkParent u.population.law u.population
    (t.clockAt (t.causalTime u.messages message)) account =
      .error (.parentExpired account born lifecycle now)

theorem isAlive_iff : u.isAlive root a = true ↔ ∃ t membership lifecycle,
    u.proofs.get? root = some t ∧ t.member? a = some membership ∧
      u.population.lifecycle? a = some lifecycle ∧
      t.maxSequence < Steps.plus membership.bornAt lifecycle := by
  unfold isAlive
  constructor
  · intro alive
    split at alive
    · cases alive
    · next t ht =>
      split at alive
      · next membership lifecycle hm hl =>
        exact ⟨t, membership, lifecycle, ht, hm, hl, of_decide_eq_true alive⟩
      · cases alive
  · rintro ⟨t, membership, lifecycle, ht, hm, hl, alive⟩
    simp only [ht, hm, hl, alive, decide_true]

theorem expiredAt_iff : u.ExpiredAt t d a ↔
    ∃ membership lifecycle, t.member? a = some membership ∧
      u.population.lifecycle? a = some lifecycle ∧
      Steps.plus membership.bornAt lifecycle ≤ t.causalTime u.messages d := by
  constructor
  · rintro ⟨born, lifecycle, now, expired⟩
    obtain ⟨-, -, hborn, hl, expiry⟩ := Law.checkParent_eq_parentExpired_iff.1 expired
    obtain ⟨membership, hm, rfl⟩ := Option.map_eq_some_iff.1 hborn
    exact ⟨membership, lifecycle, hm, hl, expiry⟩
  · rintro ⟨membership, lifecycle, hm, hl, expiry⟩
    have hborn : (t.clockAt (t.causalTime u.messages d)).bornAt a = some membership.bornAt :=
      Option.map_eq_some_iff.2 ⟨membership, hm, rfl⟩
    exact ⟨_, _, _, Law.checkParent_eq_parentExpired_iff.2 ⟨rfl, rfl, hborn, hl, expiry⟩⟩

/-- An account is alive just if it is a member and no message has come too late for it. -/
theorem Evolved.isAlive_iff_not_expiredAt (h : Evolved u) (ht : u.proofs.get? root = some t) :
    u.isAlive root a = true ↔ a ∈ t.memberships ∧ ∀ d ∈ u.messages, ¬ u.ExpiredAt t d a := by
  rw [isAlive_iff]
  constructor
  · rintro ⟨t', membership, lifecycle, ht', hm, hl, alive⟩
    rw [ht, Option.some.injEq] at ht'
    subst ht'
    refine ⟨Dag.mem_iff_value?.2 ⟨membership, hm⟩, ?_⟩
    intro d hd expired
    obtain ⟨membership', lifecycle', hm', hl', expiry⟩ := expiredAt_iff.1 expired
    rw [hm, Option.some.injEq] at hm'
    rw [hl, Option.some.injEq] at hl'
    subst hm' hl'
    obtain ⟨m, stored⟩ := Dag.mem_iff_value?.1 hd
    have late := UInt64.le_trans expiry (h.causalTime_le_maxSequence ht stored)
    exact UInt64.not_le.2 alive late
  · rintro ⟨member, timely⟩
    obtain ⟨membership, hm⟩ := Dag.mem_iff_value?.1 member
    obtain ⟨lifecycle, hl⟩ := Population.mem_iff_lifecycle?.1 (h.linked.members root t a ht member)
    refine ⟨t, membership, lifecycle, ht, hm, hl, ?_⟩
    obtain ⟨d, hd⟩ := h.exists_maxSequence ht
    have stored : d ∈ u.messages := h.linked.counted root t d ht (Dag.mem_iff_value?.2 ⟨_, hd⟩)
    have latest : t.causalTime u.messages d = t.maxSequence := by rw [TimeProof.causalTime, hd]
    refine UInt64.not_le.1 fun expiry => timely d stored ?_
    exact expiredAt_iff.2 ⟨membership, lifecycle, hm, hl, latest ▸ expiry⟩

/-- An account that is alive later is alive now, if it is there and the time proof is. -/
theorem GrowsTo.isAlive_of_later (grows : GrowsTo u u') (hroot : root ∈ u.proofs)
    (ha : a ∈ u.population) (later : u'.isAlive root a = true) : u.isAlive root a = true := by
  obtain ⟨t, ht⟩ := DigestMap.mem_iff_get?.1 hroot
  obtain ⟨t', membership, lifecycle, ht', hm, hl, alive⟩ := isAlive_iff.1 later
  obtain ⟨t'', ht'', continues⟩ := grows.proofs root t ht
  rw [ht', Option.some.injEq] at ht''
  subst ht''
  have member : a ∈ t.memberships :=
    continues.enrolled a ha (Dag.mem_iff_value?.2 ⟨membership, hm⟩)
  obtain ⟨lifecycle₀, hl₀⟩ := Population.mem_iff_lifecycle?.1 ha
  have same := grows.population.lifecycle?_mono hl₀
  rw [hl, Option.some.injEq] at same
  refine isAlive_iff.2 ⟨t, membership, lifecycle, ht, ?_, same ▸ hl₀, ?_⟩
  · exact (continues.memberships.value?_of_mem member).symm.trans hm
  · exact UInt64.lt_of_le_of_lt continues.maxSequence alive

end Universe

namespace Sample

/-- Under this law Adam lives no longer than the minimum of four steps. -/
def shortLaw : Law.Parameters := ⟨4, some 4⟩

def fourth : Message where
  id := .ofNat 0x6585fdcd7359ba81a25e811335a213b362f82cefa1d27f9fa89c40a9559cb1bf
  sender := adamId
  body := .text []
  references := [.ofMessage third]
  signature := signature
    0xb97b135a850237060987d08b692ba13511be5ea150f6b7667196d08ba7ca4a8f
    0xf398de450d14438b17fa6af302163d57161500a635365098c0cc5a49875bbb51

/-- Whether a creation succeeds, and Adam is alive with his third text and dead with his fourth. -/
def livesThreeSteps : Except UniverseError Universe → Bool
  | .error _ => false
  | .ok u => (u.run [.add sequel, .add third]).isAlive adamId adamId &&
      !(u.run [.add sequel, .add third, .add fourth]).isAlive adamId adamId

theorem livesThreeSteps_create :
    livesThreeSteps (Universe.create shortLaw genesis first) = true := by
  decide +kernel

theorem exists_short_life : ∃ u, Universe.Reachable u ∧ u.isAlive adamId adamId = true ∧
    (u.run [.add fourth]).isAlive adamId adamId = false := by
  have told := livesThreeSteps_create
  cases hu : Universe.create shortLaw genesis first with
  | error e =>
    rw [hu] at told
    cases told
  | ok u =>
    rw [hu, livesThreeSteps, Bool.and_eq_true, Bool.not_eq_true'] at told
    have start : Universe.Reachable u := .create hu
    exact ⟨u.run [.add sequel, .add third], start.run _, told.1, told.2⟩

end Sample

namespace Universe

/-- An account that is not alive in a time proof never will be. It is alive just if it is a member
and no stored message has come so late that the law rejects it as an expired parent. -/
theorem death_final (h : Reachable u) (ht : u.proofs.get? root = some t) (ha : a ∈ u.population) :
    (u.isAlive root a = false → ∀ calls, (u.run calls).isAlive root a = false) ∧
    (u.isAlive root a = true ↔ a ∈ t.memberships ∧ ∀ d ∈ u.messages, ¬ u.ExpiredAt t d a) ∧
    (u.isAlive root a = true → ∀ d ∈ u.messages, ∀ parents born lifecycle now,
      u.verdict t parents d ≠ .error (.parentExpired a born lifecycle now)) := by
  have alive_iff := h.evolved.isAlive_iff_not_expiredAt (a := a) ht
  refine ⟨?_, alive_iff, ?_⟩
  · intro dead calls
    rw [Bool.eq_false_iff] at dead ⊢
    intro later
    have hroot : root ∈ u.proofs := DigestMap.mem_iff_get?.2 ⟨t, ht⟩
    exact dead ((h.evolves_run calls).grows.isAlive_of_later hroot ha later)
  · intro alive d hd parents born lifecycle now expired
    have self := Law.checkParent_of_checkParents_eq_parentExpired expired
    exact (alive_iff.1 alive).2 d hd ⟨born, lifecycle, now, self⟩

/-- Adam may become a parent up to his third text, and with the fourth he is dead for good. -/
theorem death_final_adam : ∃ u, Reachable u ∧ u.isAlive Sample.adamId Sample.adamId = true ∧
    (∃ t, u.proofs.get? Sample.adamId = some t ∧
      ∀ d ∈ u.messages, ¬ u.ExpiredAt t d Sample.adamId) ∧
    ∀ calls, ((u.run [.add Sample.fourth]).run calls).isAlive Sample.adamId Sample.adamId = false := by
  obtain ⟨u, hu, alive, dead⟩ := Sample.exists_short_life
  obtain ⟨t, membership, lifecycle, ht, hm, hl, -⟩ := isAlive_iff.1 alive
  have ha : Sample.adamId ∈ u.population :=
    hu.linked.members _ t _ ht (Dag.mem_iff_value?.2 ⟨membership, hm⟩)
  obtain ⟨-, alive_iff, -⟩ := death_final hu ht ha
  have grows := (hu.evolves_run [.add Sample.fourth]).grows
  obtain ⟨t', ht', -⟩ := grows.proofs _ t ht
  obtain ⟨final, -, -⟩ := death_final (hu.run [.add Sample.fourth]) ht' (grows.residents.mem ha)
  exact ⟨u, hu, alive, ⟨t, ht, (alive_iff.1 alive).2⟩, final dead⟩

end Universe

end Lineage
