import Lineage.Proofs.Universe.Calls
import Lineage.Universe.Query
import Mathlib.Logic.Relation

/-!
# Reachable universes

A universe is reachable if it comes from a creation by any calls, whatever these answer. Every
call is a run of at most two changes, so what every change keeps holds of all reachable universes.
A small family with one birth shows that there are such universes, and is what later statements
are tried on.
-/
namespace Lineage

namespace Universe

/-- A call that may change a universe. -/
inductive Call where
  | add (m : Message)
  | addTimeProof (anchor : Digest)
  | addTimeProofFor (sender : Digest)

def perform (u : Universe) : Call → Universe × Except UniverseError Unit
  | .add m => u.add m
  | .addTimeProof anchor => u.addTimeProof anchor
  | .addTimeProofFor sender => u.addTimeProofFor sender

inductive Reachable : Universe → Prop where
  | create {law : Law.Parameters} {genesis : GenesisPair} {first : Message} {u : Universe}
      (h : create law genesis first = .ok u) : Reachable u
  | perform {u : Universe} (h : Reachable u) (c : Call) : Reachable (u.perform c).1

/-- What comes of a universe by changes alone. -/
abbrev Evolves : Universe → Universe → Prop := Relation.ReflTransGen Transition

/-- What comes by changes of a universe without messages. -/
inductive Evolved : Universe → Prop where
  | seed {g : GenesisPair} {law : Law.Parameters} {p : Population}
      (h : Population.Founding g law p) : Evolved (seed p)
  | step {u u' : Universe} (h : Evolved u) (s : Transition u u') : Evolved u'

variable {u u' : Universe}

theorem Evolved.linked (h : Evolved u) : Linked u := by
  induction h with
  | seed h => exact linked_seed h
  | step _ s ih => exact s.linked ih

theorem Evolved.trans (h : Evolved u) (s : Evolves u u') : Evolved u' := by
  induction s with
  | refl => exact h
  | tail _ s ih => exact .step ih s

theorem AddOutcome.evolves {m : Message} {r : Universe × Except UniverseError Unit}
    (h : AddOutcome u m r) : Evolves u r.1 := by
  cases h with
  | refused _ => exact .refl
  | text s _ => exact .single (.record s)
  | rejected s _ _ => exact .single (.record s)
  | collided s _ _ => exact .single (.record s)
  | born s _ s' => exact .tail (.single (.record s)) (.birth s')

theorem AnchorOutcome.evolves {anchor : Digest} {r : Universe × Except UniverseError Unit}
    (h : AnchorOutcome u anchor r) : Evolves u r.1 := by
  cases h with
  | refused _ => exact .refl
  | anchored s => exact .single (.anchor s)

theorem perform_evolves (h : Linked u) (c : Call) : Evolves u (u.perform c).1 := by
  cases c with
  | add m => exact (add_outcome h m).evolves
  | addTimeProof anchor => exact (addTimeProof_outcome h anchor).evolves
  | addTimeProofFor sender =>
    obtain ⟨anchor, outcome⟩ := addTimeProofFor_outcome h sender
    exact outcome.evolves

/-- A creation accepts a first message, which is a text, and sets up a time proof for it. -/
theorem exists_of_create {law : Law.Parameters} {genesis : GenesisPair} {first : Message}
    (h : create law genesis first = .ok u) : ∃ p u₁, Population.ofGenesis genesis law = .ok p ∧
      first.body.kind = .text ∧ (seed p).add first = (u₁, .ok ()) ∧
      u₁.addTimeProof first.id = (u, .ok ()) := by
  unfold create at h
  split at h
  · cases h
  · split at h
    · cases h
    · next p hp =>
      split at h
      · cases h
      · split at h
        · cases h
        · next text =>
          simp only at h
          split at h
          · cases h
          · next u₁ hadd =>
            split at h
            · cases h
            · next u₂ hanchor =>
              cases h
              exact ⟨p, u₁, hp, not_not.1 text, hadd, hanchor⟩

theorem create_eq_ok {law : Law.Parameters} {genesis : GenesisPair} {first : Message}
    (h : create law genesis first = .ok u) : ∃ p, Population.ofGenesis genesis law = .ok p ∧
      u = (((seed p).add first).1.addTimeProof first.id).1 := by
  obtain ⟨p, u₁, hp, -, hadd, hanchor⟩ := exists_of_create h
  exact ⟨p, hp, by rw [hadd, hanchor]⟩

theorem Reachable.evolved (h : Reachable u) : Evolved u := by
  induction h with
  | @create law genesis first u h =>
    obtain ⟨p, hp, rfl⟩ := create_eq_ok h
    have start : Evolved (seed p) := .seed (Population.founding_of_ofGenesis hp)
    have one := start.trans (perform_evolves start.linked (.add first))
    exact one.trans (perform_evolves one.linked (.addTimeProof first.id))
  | perform _ c ih => exact ih.trans (perform_evolves ih.linked c)

theorem Reachable.linked (h : Reachable u) : Linked u := h.evolved.linked

end Universe

namespace Sample

def key (x y : Nat) : PublicKey := .single ⟨.ofNat x, .ofNat y⟩

def signature (r s : Nat) : Octets := Octets.ofNat 32 r ++ Octets.ofNat 32 s

def adam : Account := .genesis ⟨"adam", "",
  key 0x51590b7a515140d2d784c85608668fdfef8c82fd1f5be52421554a0dc3d033ed
    0xe0c17da8904a727d8ae1bf36bf8a79260d012f00d4d80888d1d0bb44fda16da4⟩

def eve : Account := .genesis ⟨"eve", "",
  key 0x6b17d1f2e12c4247f8bce6e563a440f277037d812deb33a0f4a13945d898c296
    0x4fe342e2fe1a7f9b8ee7eb4a7c0f9e162bce33576b315ececbb6406837bf51f5⟩

def genesis : GenesisPair := ⟨adam, eve, by decide, by decide, by decide⟩

def adamId : Digest :=
  .ofNat 0x42b21ff8fe1944bd30bfbaad1ea7f6a0d9cfa26f119b27a0ae28c1166d78b050

def eveId : Digest :=
  .ofNat 0x52724d5c8110d96326aae2ac11bc7854a9ca3f59c0bf24f2c74d8630c6bdb6d1

def abelId : Digest :=
  .ofNat 0x76861731d332a5f57a27bf180c58e2d7dda37426f25df26db2751340d16e38ed

def abel : Identity := ⟨"abel", "",
  key 0x7cf27b188d034f7e8a52380304b51ac3c08969e277f21b35a60b48fc47669978
    0x07775510db8ed040293d9ac69f7430dbba7dade63ce982299e04b79d227873d1⟩

/-- The shortest lifetime that there may be. -/
def law : Law.Parameters := ⟨4, none⟩

def first : Message where
  id := .ofNat 0x38a2a5a1e2fa8aca1770352a1b43e8d8e0ab82686f5ef5537875b39a584cb5a8
  sender := adamId
  body := .text []
  references := []
  signature := signature
    0x9e94f08c1c55b1a8eb762fdfb5f009e30d7d135559525bc679dc3ba1f34573ab
    0x9ca8053548faa3ad8da9acea99e715333e9abe42248573d724d83c41ba5c5a5b

def birth : Message where
  id := .ofNat 0x2493de96c68ee126d106b37d793b2acec35932a1eaf3addedded91efdb267fa9
  sender := adamId
  body := .birth ⟨abel,
    [⟨adamId, signature
      0x7d7ef40e661e4ce013a4370d8f3fb5aff07c8adc12af24965c00fe933b7e6628
      0x3323944303d9a0dea073eecc8143dbe5f988bc3f5d3dc85e23d1d44ee3211d86⟩,
    ⟨eveId, signature
      0xe47e0ea0e1b98f1f99157bbeb5209bc69d1f8eee24710d0769d9865d8a59c1db
      0x47bb37d3424146d3bf3bd3fd522891f39cab092a7c59dd8f343ba38b6fc42669⟩]⟩
  references := [.ofMessage first]
  signature := signature
    0xfc1adea8e7e973b59254ba4dbfd2ac4821677a2fe74f4fefedcda7dd4b4cfe88
    0x15499470a208e9fc52c27d957aadd3c20c9cc0abb1214337a5c9bc4a555d9636

/-- A birth for which Adam stands twice. -/
def rejected : Message where
  id := .ofNat 0xf26969df29102bc80d068ece937d4f870d849dab1605183528c9eaaf8e1b956b
  sender := adamId
  body := .birth ⟨abel, [⟨adamId, []⟩, ⟨adamId, []⟩]⟩
  references := [.ofMessage first]
  signature := signature
    0x68ec5dc6d68b9a132cbbbc13516e279438ac2c3fb78310060bfda860f89b38c0
    0x9ab54e297f7189c6f07d7d9794c96b3c6cc489f6936b28a44240276f653da8cb

/-- What is to be found in the universe after the birth. -/
def isComplete (u : Universe) : Bool :=
  decide ((u.proofs.get? adamId).bind (·.member? abelId) = some ⟨2⟩) &&
    (u.snapshot? adamId).any (fun s => decide (abelId ∉ s)) &&
    decide (u.messages.value? birth.id = some birth)

/-- Whether a creation succeeds, and the family comes about as told. -/
def comesAbout : Except UniverseError Universe → Bool
  | .error _ => false
  | .ok u =>
    decide ((u.add rejected).2 = .error (.birthRejected rejected.id (.sameParent adamId))) &&
      isComplete (u.add birth).1

theorem comesAbout_create : comesAbout (Universe.create law genesis first) = true := by
  decide +kernel

theorem exists_founded : ∃ u, Universe.create law genesis first = .ok u ∧
    (u.add rejected).2 = .error (.birthRejected rejected.id (.sameParent adamId)) ∧
    isComplete (u.add birth).1 = true := by
  have told := comesAbout_create
  generalize Universe.create law genesis first = r at told ⊢
  cases r with
  | error e => cases told
  | ok u =>
    simp only [comesAbout, Bool.and_eq_true, decide_eq_true_eq] at told
    exact ⟨u, rfl, told⟩

theorem found_of_isComplete {u : Universe} (told : isComplete u = true) :
    ∃ t s, u.proofs.get? adamId = some t ∧ t.member? abelId = some ⟨2⟩ ∧
      u.snapshot? adamId = some s ∧ abelId ∉ s ∧ u.messages.value? birth.id = some birth := by
  simp only [isComplete, Bool.and_eq_true, decide_eq_true_eq, Option.any_eq_true,
    Option.bind_eq_some_iff] at told
  obtain ⟨⟨⟨t, ht, hm⟩, s, hs, hout⟩, hb⟩ := told
  exact ⟨t, s, ht, hm, hs, hout, hb⟩

/-- A universe in which Abel has been born. -/
theorem exists_family : ∃ u t s, Universe.Reachable u ∧ u.proofs.get? adamId = some t ∧
    t.member? abelId = some ⟨2⟩ ∧ u.snapshot? adamId = some s ∧ abelId ∉ s ∧
    u.messages.value? birth.id = some birth := by
  obtain ⟨u, hu, _, told⟩ := exists_founded
  obtain ⟨t, s, found⟩ := found_of_isComplete told
  exact ⟨_, t, s, .perform (.create hu) (.add birth), found⟩

end Sample

end Lineage
