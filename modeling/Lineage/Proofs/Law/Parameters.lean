import Lineage.Proofs.Law.Windows

/-!
# Which parameters are accepted

The minimum has to be long enough for its quarter to be a step at least, and the genesis accounts
may not live shorter than it. This is checked in this order.
-/
namespace Lineage.Law.Parameters

variable {law : Parameters} {e : ParameterError}

/-- Parameters under which there may be accounts. -/
structure Accepted (law : Parameters) : Prop where
  four_le : 4 ≤ law.minLifetime.toNat
  genesis_le : ∀ n, law.genesisLifetime = some n → law.minLifetime.toNat ≤ n.toNat

/-- What is wrong with parameters first. -/
inductive Refused (law : Parameters) : ParameterError → Prop where
  | tooShort (short : law.minLifetime.toNat < 4) :
      Refused law (.lifetimeTooShort law.minLifetime)
  | belowMinimum (long : 4 ≤ law.minLifetime.toNat) {n : Steps}
      (set : law.genesisLifetime = some n) (below : n.toNat < law.minLifetime.toNat) :
      Refused law (.genesisBelowMinimum n law.minLifetime)

/-- A quarter vanishes just if it is one of less than four steps. -/
theorem quarter_eq_zero_iff : law.quarter = 0 ↔ law.minLifetime.toNat < 4 := by
  rw [← UInt64.toNat_inj, toNat_quarter]
  exact Nat.div_eq_zero_iff_lt (by decide)

theorem quarter_ne_zero (long : 4 ≤ law.minLifetime.toNat) : law.quarter ≠ 0 :=
  fun zero => Nat.not_lt_of_le long (quarter_eq_zero_iff.1 zero)

theorem Accepted.validate_eq (h : Accepted law) : law.validate = .ok () := by
  rw [validate, if_neg (quarter_ne_zero h.four_le)]
  cases set : law.genesisLifetime with
  | none => rfl
  | some n =>
    have reached : ¬ n < law.minLifetime := fun below =>
      Nat.not_lt_of_le (h.genesis_le n set) (UInt64.lt_iff_toNat_lt.1 below)
    exact if_neg reached

theorem Refused.validate_eq (h : Refused law e) : law.validate = .error e := by
  cases h with
  | tooShort short => rw [validate, if_pos (quarter_eq_zero_iff.2 short)]
  | belowMinimum long set below =>
    rw [validate, if_neg (quarter_ne_zero long), set]
    exact if_pos (UInt64.lt_iff_toNat_lt.2 below)

theorem accepted_or_refused (law : Parameters) : law.Accepted ∨ ∃ e, law.Refused e := by
  rcases Nat.lt_or_ge law.minLifetime.toNat 4 with short | long
  · exact .inr ⟨_, .tooShort short⟩
  cases set : law.genesisLifetime with
  | none => exact .inl ⟨long, fun n h => by rw [set] at h; cases h⟩
  | some g =>
    rcases Nat.lt_or_ge g.toNat law.minLifetime.toNat with below | reached
    · exact .inr ⟨_, .belowMinimum long set below⟩
    · refine .inl ⟨long, fun n h => ?_⟩
      rw [set] at h
      cases h
      exact reached

end Lineage.Law.Parameters
