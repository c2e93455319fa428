import Lineage.Law.Windows

/-!
# The windows in exact numbers

The check of a parent adds and subtracts times that stay within 64-bit words. What it comes to is
said here in natural numbers: a sum that does not fit is later than any time, and a difference
that would be negative is less than any age of consent.
-/
namespace Lineage.Law

variable {law : Parameters} {p : Population} {clock : Clock} {parent : Digest}

theorem Parameters.toNat_quarter (law : Parameters) :
    law.quarter.toNat = law.minLifetime.toNat / 4 := by
  simp [quarter]

theorem Parameters.quarter_pos (h : law.validate = .ok ()) : 1 ≤ law.quarter.toNat := by
  unfold validate at h
  split at h
  · cases h
  · next hne =>
    refine Nat.one_le_iff_ne_zero.2 fun hz => hne ?_
    exact UInt64.toNat_inj.1 hz

/-- No child is too close exactly when all known ones are a quarter away. -/
theorem closeChild?_eq_none_iff {quarter : Steps} {children : List Digest} :
    closeChild? clock quarter children = none ↔
      ∀ child ∈ children, ∀ last, clock.bornAt child = some last →
        quarter.toNat ≤ ((clock.now.toNat : Int) - last.toNat).natAbs := by
  induction children with
  | nil => simp [closeChild?]
  | cons child rest ih =>
    rw [List.forall_mem_cons, ← ih, closeChild?]
    cases hborn : clock.bornAt child with
    | none => simp
    | some last =>
      simp only [UInt64.lt_iff_toNat_lt, Steps.toNat_distance, Option.some.injEq, forall_eq']
      split
      · next hclose => simp [Nat.not_le_of_lt hclose]
      · next hfar => simp [Nat.le_of_not_lt hfar]

/-- An account may be a parent of one that is born at the time of the clock. -/
structure Window (law : Parameters) (p : Population) (clock : Clock) (parent : Digest)
    (born lifecycle : Steps) : Prop where
  bornAt : clock.bornAt parent = some born
  lifecycle? : p.lifecycle? parent = some lifecycle
  alive : clock.now.toNat < min (born.toNat + lifecycle.toNat) Steps.maximum
  adult : law.quarter.toNat ≤ clock.now.toNat - born.toNat
  spaced : ∀ child ∈ p.children parent, ∀ last, clock.bornAt child = some last →
    law.quarter.toNat ≤ ((clock.now.toNat : Int) - last.toNat).natAbs

theorem checkParent_eq_ok_iff : checkParent law p clock parent = .ok () ↔
    ∃ born lifecycle, Window law p clock parent born lifecycle := by
  unfold checkParent
  constructor
  · intro h
    split at h
    · cases h
    · cases h
    · next born lifecycle hborn hlife =>
      split at h
      · cases h
      · next halive =>
        simp only at h
        split at h
        · cases h
        · next hadult =>
          split at h
          · cases h
          · next hclose =>
            rw [UInt64.le_iff_toNat_le, Steps.toNat_plus] at halive
            rw [UInt64.lt_iff_toNat_lt, Steps.toNat_minus] at hadult
            exact ⟨born, lifecycle, hborn, hlife, Nat.lt_of_not_le halive,
              Nat.le_of_not_lt hadult, closeChild?_eq_none_iff.1 hclose⟩
  · rintro ⟨born, lifecycle, hborn, hlife, halive, hadult, hspaced⟩
    have hexpired : ¬ Steps.plus born lifecycle ≤ clock.now := by
      rw [UInt64.le_iff_toNat_le, Steps.toNat_plus]
      exact Nat.not_le_of_lt halive
    have hyoung : ¬ Steps.minus clock.now born < law.quarter := by
      rw [UInt64.lt_iff_toNat_lt, Steps.toNat_minus]
      exact Nat.not_lt_of_le hadult
    simp only [hborn, hlife, if_neg hexpired, if_neg hyoung, closeChild?_eq_none_iff.2 hspaced]

theorem checkParents_eq_ok_iff {parents : Digest × Digest} :
    checkParents law p parents clock = .ok () ↔
      ∀ d, d = parents.1 ∨ d = parents.2 → ∃ born lifecycle, Window law p clock d born lifecycle := by
  simp only [← checkParent_eq_ok_iff, forall_eq_or_imp, forall_eq]
  unfold checkParents
  cases checkParent law p clock parents.1 <;> simp [bind, Except.bind]

/-- An account is refused as expired just if its birth time and lifetime are known and over. -/
theorem checkParent_eq_parentExpired_iff {d : Digest} {born lifecycle now : Steps} :
    checkParent law p clock parent = .error (.parentExpired d born lifecycle now) ↔
      d = parent ∧ now = clock.now ∧ clock.bornAt parent = some born ∧
        p.lifecycle? parent = some lifecycle ∧ Steps.plus born lifecycle ≤ clock.now := by
  unfold checkParent
  constructor
  · intro h
    split at h
    · cases h
    · cases h
    · next born lifecycle hborn hlife =>
      split at h
      · next expiry =>
        cases h
        exact ⟨rfl, rfl, hborn, hlife, expiry⟩
      · simp only at h
        split at h
        · cases h
        · split at h
          · cases h
          · cases h
  · rintro ⟨rfl, rfl, hborn, hlife, expiry⟩
    simp only [hborn, hlife, if_pos expiry]

/-- Of two parents one is refused as expired only if it is so by itself. -/
theorem checkParent_of_checkParents_eq_parentExpired {parents : Digest × Digest} {d : Digest}
    {born lifecycle now : Steps}
    (h : checkParents law p parents clock = .error (.parentExpired d born lifecycle now)) :
    checkParent law p clock d = .error (.parentExpired d born lifecycle now) := by
  have self : ∀ parent, checkParent law p clock parent = .error (.parentExpired d born lifecycle now) →
      checkParent law p clock d = .error (.parentExpired d born lifecycle now) := by
    intro parent hparent
    obtain ⟨rfl, -⟩ := checkParent_eq_parentExpired_iff.1 hparent
    exact hparent
  unfold checkParents at h
  cases first : checkParent law p clock parents.1 with
  | error e =>
    rw [first] at h
    exact self parents.1 (first.trans h)
  | ok _ =>
    rw [first] at h
    exact self parents.2 h

/-- With a quarter of at least one step the parent is born a quarter before the child. -/
theorem Window.consent {born lifecycle : Steps} (h : Window law p clock parent born lifecycle)
    (hq : 1 ≤ law.quarter.toNat) : born.toNat + law.quarter.toNat ≤ clock.now.toNat := by
  have := h.adult
  omega

theorem Window.now_lt {born lifecycle : Steps} (h : Window law p clock parent born lifecycle) :
    clock.now.toNat < born.toNat + lifecycle.toNat :=
  Nat.lt_of_lt_of_le h.alive (Nat.min_le_left ..)

end Lineage.Law
