/-!
# Steps

Time is counted in steps, as 64-bit words. Sums and products that do not fit stay at the greatest
word, and differences that would be negative stay at zero.
-/

namespace Lineage

abbrev Steps := UInt64

namespace Steps

/-- The greatest number of steps. -/
def maximum : Nat := UInt64.size - 1

/-- The number of steps nearest to a natural number. -/
def clamp (n : Nat) : Steps := UInt64.ofNat (min n maximum)

@[simp] theorem toNat_clamp (n : Nat) : (clamp n).toNat = min n maximum := by
  have h : min n maximum < UInt64.size := by simp only [maximum, UInt64.size]; omega
  rw [clamp]
  exact UInt64.toNat_ofNat_of_lt h

theorem toNat_le_maximum (a : Steps) : a.toNat ≤ maximum := Nat.le_pred_of_lt a.toNat_lt

/-- The step `b` steps after `a`. -/
def plus (a b : Steps) : Steps := clamp (a.toNat + b.toNat)

@[simp] theorem toNat_plus (a b : Steps) :
    (plus a b).toNat = min (a.toNat + b.toNat) maximum :=
  toNat_clamp _

/-- The steps from `b` to `a`, none when `b` is the later one. -/
def minus (a b : Steps) : Steps := clamp (a.toNat - b.toNat)

@[simp] theorem toNat_minus (a b : Steps) : (minus a b).toNat = a.toNat - b.toNat := by
  have := a.toNat_le_maximum
  rw [minus, toNat_clamp]
  omega

def times (a : Steps) (n : Nat) : Steps := clamp (a.toNat * n)

/-- The steps between two times, whichever is the earlier one. -/
def distance (a b : Steps) : Steps := clamp (max (a.toNat - b.toNat) (b.toNat - a.toNat))

@[simp] theorem toNat_distance (a b : Steps) :
    (distance a b).toNat = ((a.toNat : Int) - b.toNat).natAbs := by
  have := a.toNat_le_maximum
  have := b.toNat_le_maximum
  rw [distance, toNat_clamp]
  omega

end Steps

end Lineage
