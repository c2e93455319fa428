import Lineage.Proofs.Law.Windows
import Lineage.Proofs.Outcomes
import Mathlib.Tactic.Common

/-!
# Which rule is broken first

Two accounts may be parents just if each of them is in its window. Otherwise the first of the two
that is not is reported, with the first rule that it breaks: it has to be born, known, alive, old
enough, and without a child that is too close. Of several such children the one that was admitted
first is reported.
-/
namespace Lineage.Law

variable {law : Parameters} {p : Population} {clock : Clock} {parent : Digest}
  {born lifecycle : Steps} {e : BirthError}

/-- A child that is not known to the clock, or was born at least a quarter before or after now. -/
def Apart (clock : Clock) (quarter : Steps) (child : Digest) : Prop :=
  ∀ last, clock.bornAt child = some last →
    quarter.toNat ≤ ((clock.now.toNat : Int) - last.toNat).natAbs

/-- An account that has been born and whose lifetime is known. -/
structure Known (p : Population) (clock : Clock) (parent : Digest) (born lifecycle : Steps) :
    Prop where
  bornAt : clock.bornAt parent = some born
  lifecycle? : p.lifecycle? parent = some lifecycle

/-- A known account whose lifetime is not over. -/
structure Alive (p : Population) (clock : Clock) (parent : Digest) (born lifecycle : Steps) : Prop
    extends Known p clock parent born lifecycle where
  alive : clock.now.toNat < min (born.toNat + lifecycle.toNat) Steps.maximum

/-- An account that is alive and a quarter old. -/
structure Adult (law : Parameters) (p : Population) (clock : Clock) (parent : Digest)
    (born lifecycle : Steps) : Prop extends Alive p clock parent born lifecycle where
  adult : law.quarter.toNat ≤ clock.now.toNat - born.toNat

/-- The first rule that an account breaks: each case says that it keeps all earlier ones. -/
inductive Breach (law : Parameters) (p : Population) (clock : Clock) (parent : Digest) :
    BirthError → Prop where
  | absent (absent : clock.bornAt parent = none) :
      Breach law p clock parent (.parentNotInTimeProof parent)
  | unknown {born : Steps} (bornAt : clock.bornAt parent = some born)
      (unknown : p.lifecycle? parent = none) : Breach law p clock parent (.unknownParent parent)
  | expired {born lifecycle : Steps} (known : Known p clock parent born lifecycle)
      (ended : min (born.toNat + lifecycle.toNat) Steps.maximum ≤ clock.now.toNat) :
      Breach law p clock parent (.parentExpired parent born lifecycle clock.now)
  | young {born lifecycle age : Steps} (alive : Alive p clock parent born lifecycle)
      (age_eq : age.toNat = clock.now.toNat - born.toNat) (young : age.toNat < law.quarter.toNat) :
      Breach law p clock parent (.parentTooYoung parent age law.quarter)
  | close {born lifecycle last : Steps} (adult : Adult law p clock parent born lifecycle)
      {before after : List Digest} {child : Digest}
      (split : p.children parent = before ++ child :: after)
      (apart : ∀ c ∈ before, Apart clock law.quarter c) (bornAt : clock.bornAt child = some last)
      (close : ((clock.now.toNat : Int) - last.toNat).natAbs < law.quarter.toNat) :
      Breach law p clock parent (.cosignRateLimited parent last clock.now)

section CloseChild

variable {quarter last : Steps} {children : List Digest} {child : Digest}

theorem closeChild?_cons_of_apart (h : Apart clock quarter child) :
    closeChild? clock quarter (child :: children) = closeChild? clock quarter children := by
  rw [closeChild?]
  cases hborn : clock.bornAt child with
  | none => rfl
  | some last =>
    have far : ¬ Steps.distance clock.now last < quarter := by
      rw [UInt64.lt_iff_toNat_lt, Steps.toNat_distance]
      exact Nat.not_lt_of_le (h last hborn)
    simp only [if_neg far]

theorem closeChild?_cons_of_close (hborn : clock.bornAt child = some last)
    (close : ((clock.now.toNat : Int) - last.toNat).natAbs < quarter.toNat) :
    closeChild? clock quarter (child :: children) = some last := by
  rw [← Steps.toNat_distance, ← UInt64.lt_iff_toNat_lt] at close
  rw [closeChild?, hborn]
  simp only [if_pos close]

theorem not_apart_iff : ¬ Apart clock quarter child ↔ ∃ last, clock.bornAt child = some last ∧
    ((clock.now.toNat : Int) - last.toNat).natAbs < quarter.toNat := by
  simp only [Apart, not_forall, exists_prop, Nat.not_le]

/-- The search stops at the first child that is too close. -/
theorem closeChild?_eq_some_iff : closeChild? clock quarter children = some last ↔
    ∃ before child after, children = before ++ child :: after ∧
      (∀ c ∈ before, Apart clock quarter c) ∧ clock.bornAt child = some last ∧
      ((clock.now.toNat : Int) - last.toNat).natAbs < quarter.toNat := by
  constructor
  · intro h
    induction children with
    | nil => cases h
    | cons child rest ih =>
      by_cases apart : Apart clock quarter child
      · rw [closeChild?_cons_of_apart apart] at h
        obtain ⟨before, c, after, rfl, earlier, found⟩ := ih h
        exact ⟨child :: before, c, after, rfl, List.forall_mem_cons.2 ⟨apart, earlier⟩, found⟩
      · obtain ⟨last', hborn, close⟩ := not_apart_iff.1 apart
        rw [closeChild?_cons_of_close hborn close] at h
        cases h
        exact ⟨[], child, rest, rfl, nofun, hborn, close⟩
  · rintro ⟨before, child, after, rfl, earlier, hborn, close⟩
    induction before with
    | nil => exact closeChild?_cons_of_close hborn close
    | cons c before ih =>
      obtain ⟨apart, earlier⟩ := List.forall_mem_cons.1 earlier
      rw [List.cons_append, closeChild?_cons_of_apart apart, ih earlier]

end CloseChild

theorem Alive.not_expired (h : Alive p clock parent born lifecycle) :
    ¬ Steps.plus born lifecycle ≤ clock.now := by
  rw [UInt64.le_iff_toNat_le, Steps.toNat_plus]
  exact Nat.not_le_of_lt h.alive

theorem Adult.not_young (h : Adult law p clock parent born lifecycle) :
    ¬ Steps.minus clock.now born < law.quarter := by
  rw [UInt64.lt_iff_toNat_lt, Steps.toNat_minus]
  exact Nat.not_lt_of_le h.adult

theorem Breach.checkParent_eq (h : Breach law p clock parent e) :
    checkParent law p clock parent = .error e := by
  unfold checkParent
  cases h with
  | absent absent => simp only [absent]
  | unknown bornAt unknown => simp only [bornAt, unknown]
  | expired known ended =>
    rw [← Steps.toNat_plus, ← UInt64.le_iff_toNat_le] at ended
    simp only [known.bornAt, known.lifecycle?, if_pos ended]
  | @young born lifecycle age alive age_eq young =>
    have minus : Steps.minus clock.now born = age := by
      rw [← UInt64.toNat_inj, Steps.toNat_minus, age_eq]
    rw [← UInt64.lt_iff_toNat_lt] at young
    simp only [alive.bornAt, alive.lifecycle?, if_neg alive.not_expired, minus, if_pos young]
  | close adult split apart bornAt close =>
    have found := closeChild?_eq_some_iff.2 ⟨_, _, _, split, apart, bornAt, close⟩
    simp only [adult.bornAt, adult.lifecycle?, if_neg adult.not_expired, if_neg adult.not_young,
      found]

/-- An account that is not in its window breaks one of the rules first. -/
theorem window_or_breach (law : Parameters) (p : Population) (clock : Clock) (parent : Digest) :
    (∃ born lifecycle, Window law p clock parent born lifecycle) ∨
      ∃ e, Breach law p clock parent e := by
  cases hborn : clock.bornAt parent with
  | none => exact .inr ⟨_, .absent hborn⟩
  | some born =>
    cases hlife : p.lifecycle? parent with
    | none => exact .inr ⟨_, .unknown hborn hlife⟩
    | some lifecycle =>
      have known : Known p clock parent born lifecycle := ⟨hborn, hlife⟩
      rcases Nat.lt_or_ge clock.now.toNat (min (born.toNat + lifecycle.toNat) Steps.maximum)
        with halive | ended
      swap
      · exact .inr ⟨_, .expired known ended⟩
      have alive : Alive p clock parent born lifecycle := ⟨known, halive⟩
      rcases Nat.lt_or_ge (Steps.minus clock.now born).toNat law.quarter.toNat with young | hadult
      · exact .inr ⟨_, .young alive (Steps.toNat_minus ..) young⟩
      rw [Steps.toNat_minus] at hadult
      cases hclose : closeChild? clock law.quarter (p.children parent) with
      | none =>
        exact .inl ⟨born, lifecycle, hborn, hlife, halive, hadult, closeChild?_eq_none_iff.1 hclose⟩
      | some last =>
        obtain ⟨_, _, _, split, apart, bornAt, close⟩ := closeChild?_eq_some_iff.1 hclose
        exact .inr ⟨_, .close ⟨alive, hadult⟩ split apart bornAt close⟩

theorem checkParent_eq_error_iff :
    checkParent law p clock parent = .error e ↔ Breach law p clock parent e := by
  have passes (window : ∃ born lifecycle, Window law p clock parent born lifecycle) :
      ∃ r, checkParent law p clock parent = .ok r := ⟨(), checkParent_eq_ok_iff.2 window⟩
  have cover := window_or_breach law p clock parent
  exact (exists_iff_of_cover cover passes fun _ breach => breach.checkParent_eq).2 e

variable {parents : Digest × Digest}

theorem checkParents_eq_error_iff : checkParents law p parents clock = .error e ↔
    Breach law p clock parents.1 e ∨
      (∃ born lifecycle, Window law p clock parents.1 born lifecycle) ∧
        Breach law p clock parents.2 e := by
  simp only [← checkParent_eq_error_iff, ← checkParent_eq_ok_iff]
  unfold checkParents
  cases checkParent law p clock parents.1 <;> simp [bind, Except.bind]

theorem checkParents_swap : checkParents law p parents.swap clock = .ok () ↔
    checkParents law p parents clock = .ok () := by
  simp only [checkParents_eq_ok_iff, Prod.fst_swap, Prod.snd_swap]
  exact forall_congr' fun _ => by rw [or_comm]

/-- A birth passes just if both parents are in their windows, whichever comes first. Otherwise the
first parent that is not is reported with the first rule that it breaks. -/
theorem windows_decided (law : Parameters) (p : Population) (parents : Digest × Digest)
    (clock : Clock) :
    (checkParents law p parents clock = .ok () ↔
      ∀ d, d = parents.1 ∨ d = parents.2 →
        ∃ born lifecycle, Window law p clock d born lifecycle) ∧
    (∀ e, checkParents law p parents clock = .error e ↔
      Breach law p clock parents.1 e ∨
        (∃ born lifecycle, Window law p clock parents.1 born lifecycle) ∧
          Breach law p clock parents.2 e) ∧
    (checkParents law p parents.swap clock = .ok () ↔
      checkParents law p parents clock = .ok ()) ∧
    (1 ≤ law.quarter.toNat → ∀ d born, d = parents.1 ∨ d = parents.2 →
      clock.bornAt d = some born → clock.now.toNat < born.toNat →
        checkParents law p parents clock ≠ .ok ()) := by
  refine ⟨checkParents_eq_ok_iff, fun _ => checkParents_eq_error_iff, checkParents_swap, ?_⟩
  intro quarter d born hd hborn before passes
  obtain ⟨born', lifecycle, window⟩ := checkParents_eq_ok_iff.1 passes d hd
  have same : born' = born := Option.some.inj (window.bornAt.symm.trans hborn)
  have consent := window.consent quarter
  rw [same] at consent
  omega

end Lineage.Law

namespace Lineage.Sample

/-- An account of which only the place among others matters. -/
def someone : Resident := ⟨.genesis ⟨"", "", .threshold []⟩, 8⟩

/-- The accounts one and two, and their child three, each of which lives for eight steps. -/
def household : Population where
  residents := ⟨[⟨.ofNat 3, someone, .ofList [.ofNat 1, .ofNat 2]⟩, ⟨.ofNat 2, someone, ∅⟩,
    ⟨.ofNat 1, someone, ∅⟩], by
      have known : ∀ d ∈ DigestSet.ofList [.ofNat 1, .ofNat 2], d ∈ [Word256.ofNat 2, .ofNat 1] := by
        intro d hd
        exact List.mem_reverse.1 (DigestSet.mem_ofList.1 hd)
      exact .cons (by decide) known (.cons (by decide) nofun (.cons (by decide) nofun .nil))⟩
  genesis := (.ofNat 1, .ofNat 2)
  law := ⟨8, none⟩

/-- The parents were born at some time, and the child four steps after the beginning. -/
def householdClock (born now : Steps) : Law.Clock where
  now := now
  bornAt d := if d = .ofNat 3 then some 4 else some born

end Lineage.Sample

namespace Lineage.Law

open Sample

/-- Two steps before the birth of their child the parents may have another one, in either order, and
one step after it they may not. They could not if they had been born themselves after that time. -/
theorem windows_decided_household :
    checkParents household.law household (.ofNat 1, .ofNat 2) (householdClock 0 2) = .ok () ∧
    checkParents household.law household (.ofNat 2, .ofNat 1) (householdClock 0 2) = .ok () ∧
    checkParents household.law household (.ofNat 1, .ofNat 2) (householdClock 0 5) =
      .error (.cosignRateLimited (.ofNat 1) 4 5) ∧
    1 ≤ household.law.quarter.toNat ∧
    checkParents household.law household (.ofNat 1, .ofNat 2) (householdClock 3 2) ≠ .ok () := by
  have decided := windows_decided household.law household (.ofNat 1, .ofNat 2)
  have passes : checkParents household.law household (.ofNat 1, .ofNat 2) (householdClock 0 2) =
      .ok () := by
    refine (decided _).1.2 ?_
    rintro d (rfl | rfl)
    · exact ⟨0, 8, by decide, by decide, by decide, by decide,
        closeChild?_eq_none_iff.1 (by decide)⟩
    · exact ⟨0, 8, by decide, by decide, by decide, by decide,
        closeChild?_eq_none_iff.1 (by decide)⟩
  have quarter : 1 ≤ household.law.quarter.toNat := by decide
  have adult : Adult household.law household (householdClock 0 5) (.ofNat 1) 0 8 :=
    ⟨⟨⟨by decide, by decide⟩, by decide⟩, by decide⟩
  have split : household.children (.ofNat 1) = [] ++ .ofNat 3 :: [] := by decide
  have bornAt : (householdClock 0 5).bornAt (.ofNat 3) = some 4 := by decide
  have limited := Breach.close adult split nofun bornAt (by decide)
  exact ⟨passes, (decided _).2.2.1.2 passes, ((decided _).2.1 _).2 (.inl limited), quarter,
    (decided (householdClock 3 2)).2.2.2 quarter (.ofNat 1) 3 (.inl rfl) (by decide) (by decide)⟩

end Lineage.Law
