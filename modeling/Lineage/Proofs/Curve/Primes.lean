import Lineage.Proofs.Curve.Powers
import Mathlib.Data.List.Prime
import Mathlib.NumberTheory.LucasPrimality

/-!
# The two primes of the curve

Lucas's test shows that a number is prime by a root. Its power with the number before as the
exponent is one, and with this exponent divided by one of its prime factors it is not. So the prime
factors have to be known, and to be prime in turn, down to numbers for which all divisors can be
tried.
-/
namespace Lineage.Curve

/-- None of the numbers from `d` on that could be the least factor of `n` divides it. The bound on
the number of tries is not met. -/
def undivided (n : Nat) : Nat → Nat → Bool
  | 0, _ => false
  | tries + 1, d => n < d * d || (n % d != 0 && undivided n tries (d + 1))

/-- A number of which a few thousand divisors are tried. -/
def Small (n : Nat) : Prop := 2 ≤ n ∧ undivided n 4096 2 = true

instance (n : Nat) : Decidable (Small n) := by unfold Small; infer_instance

theorem minFac_mul_self_of_undivided {n tries d : Nat} (h : undivided n tries d = true)
    (upto : d ≤ n.minFac) : n < n.minFac * n.minFac := by
  induction tries generalizing d with
  | zero => exact absurd h (by simp [undivided])
  | succ tries ih =>
    rw [undivided, Bool.or_eq_true, decide_eq_true_eq, Bool.and_eq_true, bne_iff_ne] at h
    rcases h with past | ⟨not_dvd, rest⟩
    · exact past.trans_le (Nat.mul_le_mul upto upto)
    · refine ih rest (Nat.lt_of_le_of_ne upto ?_)
      rintro rfl
      exact not_dvd (Nat.mod_eq_zero_of_dvd n.minFac_dvd)

theorem Small.prime {n : Nat} (h : Small n) : n.Prime := by
  have two : 2 ≤ n := h.1
  have least : 2 ≤ n.minFac := (Nat.minFac_prime (by omega)).two_le
  have past := minFac_mul_self_of_undivided h.2 least
  by_contra composite
  have square := Nat.minFac_sq_le_self (by omega) composite
  rw [sq] at square
  omega

/-- Why a number is prime: a root, and the prime factors of the number before. -/
structure PrimeCertificate where
  number : Nat
  root : Nat
  factors : List Nat

/-- The factors are all of them, and the root has the number before as its order. -/
structure PrimeCertificate.Holds (c : PrimeCertificate) : Prop where
  one_lt : 1 < c.number
  lt : c.number < 2 ^ 256
  prod_factors : c.factors.prod = c.number - 1
  power_eq_one : power c.number c.root (c.number - 1) = 1
  power_ne_one : ∀ q ∈ c.factors, power c.number c.root ((c.number - 1) / q) ≠ 1

instance (c : PrimeCertificate) : Decidable c.Holds :=
  decidable_of_iff (1 < c.number ∧ c.number < 2 ^ 256 ∧ c.factors.prod = c.number - 1 ∧
      power c.number c.root (c.number - 1) = 1 ∧
      ∀ q ∈ c.factors, power c.number c.root ((c.number - 1) / q) ≠ 1)
    ⟨fun ⟨a, b, c, d, e⟩ => ⟨a, b, c, d, e⟩, fun ⟨a, b, c, d, e⟩ => ⟨a, b, c, d, e⟩⟩

/-- A power is one modulo a number just if it is computed to be one. -/
theorem natCast_pow_eq_one_iff {m : Nat} (hm : 1 < m) (base : Nat) {n : Nat} (hn : n < 2 ^ 256) :
    (base : ZMod m) ^ n = 1 ↔ power m base n = 1 := by
  rw [power_eq hm base hn, ← Nat.cast_pow, ← Nat.cast_one, ZMod.natCast_eq_natCast_iff',
    Nat.mod_eq_of_lt hm]

/-- Lucas's test. -/
theorem PrimeCertificate.Holds.prime {c : PrimeCertificate} (h : c.Holds)
    (factors : ∀ q ∈ c.factors, q.Prime) : c.number.Prime := by
  have one_lt := h.one_lt
  have lt := h.lt
  refine lucas_primality c.number (c.root : ZMod c.number) ?_ fun q hq dvd => ?_
  · exact (natCast_pow_eq_one_iff one_lt _ (by omega)).2 h.power_eq_one
  · rw [← h.prod_factors] at dvd
    have listed : q ∈ c.factors := mem_list_primes_of_dvd_prod hq.prime
      (fun r hr => (factors r hr).prime) dvd
    have part : (c.number - 1) / q < 2 ^ 256 := (Nat.div_le_self _ _).trans_lt (by omega)
    exact mt (natCast_pow_eq_one_iff one_lt _ part).1 (h.power_ne_one q listed)

/-- Certificates of which each relies on small primes and on those after it. -/
def Certified : List PrimeCertificate → Prop
  | [] => True
  | c :: rest => (c.Holds ∧ ∀ q ∈ c.factors, q ∈ rest.map (·.number) ∨ Small q) ∧ Certified rest

instance Certified.decidable : (cs : List PrimeCertificate) → Decidable (Certified cs)
  | [] => inferInstanceAs (Decidable True)
  | c :: rest =>
    have := Certified.decidable rest
    inferInstanceAs (Decidable
      ((c.Holds ∧ ∀ q ∈ c.factors, q ∈ rest.map (·.number) ∨ Small q) ∧ Certified rest))

theorem Certified.prime {cs : List PrimeCertificate} (h : Certified cs) :
    ∀ c ∈ cs, c.number.Prime := by
  induction cs with
  | nil => simp
  | cons c rest ih =>
    obtain ⟨⟨holds, known⟩, others⟩ := h
    have factors : ∀ q ∈ c.factors, q.Prime := by
      intro q hq
      rcases known q hq with certified | small
      · obtain ⟨d, hd, rfl⟩ := List.mem_map.1 certified
        exact ih others d hd
      · exact small.prime
    intro d hd
    rcases List.mem_cons.1 hd with rfl | hd
    · exact holds.prime factors
    · exact ih others d hd

def fieldCertificate : PrimeCertificate where
  number := fieldPrime
  root := 6
  factors := [2, 3, 5, 5, 17, 257, 641, 1531, 65537, 490463, 6700417,
    835945042244614951780389953367877943453916927241]

def orderCertificate : PrimeCertificate where
  number := groupOrder
  root := 7
  factors := [2, 2, 2, 2, 3, 71, 131, 373, 3407, 17449, 38189, 187019741, 622491383, 1002328039319,
    2624747550333869278416773953]

/-- The certificates of the larger factors. -/
def factorCertificates : List PrimeCertificate :=
  [⟨835945042244614951780389953367877943453916927241, 11,
      [2, 2, 2, 3, 3, 3, 5, 774023187263532362759620327192479577272145303]⟩,
    ⟨774023187263532362759620327192479577272145303, 3,
      [2, 3, 3, 2411, 34282281433, 11290956913871, 46076956964474543]⟩,
    ⟨46076956964474543, 5, [2, 23, 18169, 78283, 704251]⟩,
    ⟨11290956913871, 13, [2, 5, 17, 66417393611]⟩,
    ⟨66417393611, 6, [2, 5, 53, 173, 197, 3677]⟩,
    ⟨34282281433, 17, [2, 2, 2, 3, 7, 204061199]⟩,
    ⟨204061199, 11, [2, 11, 23, 107, 3769]⟩,
    ⟨2624747550333869278416773953, 7,
      [2, 2, 2, 2, 2, 2, 3, 3, 1297, 16879, 208150935158385979]⟩,
    ⟨208150935158385979, 2, [2, 3, 11, 43, 127, 3023, 191039911]⟩,
    ⟨1002328039319, 19, [2, 126241, 3969899]⟩,
    ⟨622491383, 5, [2, 311245691]⟩,
    ⟨311245691, 2, [2, 5, 7, 17, 29, 29, 311]⟩,
    ⟨191039911, 3, [2, 3, 5, 41, 155317]⟩,
    ⟨187019741, 2, [2, 2, 5, 9350987]⟩]

theorem certified : Certified (fieldCertificate :: orderCertificate :: factorCertificates) := by
  decide +kernel

theorem prime_fieldPrime : fieldPrime.Prime :=
  certified.prime fieldCertificate List.mem_cons_self

theorem prime_groupOrder : groupOrder.Prime :=
  certified.prime orderCertificate (List.mem_cons_of_mem _ List.mem_cons_self)

instance : Fact fieldPrime.Prime := ⟨prime_fieldPrime⟩

instance : Fact groupOrder.Prime := ⟨prime_groupOrder⟩

end Lineage.Curve
