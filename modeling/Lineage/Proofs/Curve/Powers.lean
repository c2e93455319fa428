import Lineage.Curve.P256
import Mathlib.FieldTheory.Finite.Basic

/-!
# Powers along the bits of an exponent

Powers and multiples are computed from the bits of a number, the most significant first: a step
doubles what has been reached, and adds one where the bit is set. So what holds at zero and is
carried along by these steps holds at the number itself. For powers modulo a prime this gives the
inverses of the field.
-/
namespace Lineage.Curve

/-- The bits down to one place spell twice what those above it spell, and the bit there. -/
theorem shiftRight_eq (n i : Nat) : n >>> i = 2 * (n >>> (i + 1)) + (n.testBit i).toNat := by
  have bit : (n.testBit i).toNat = n / 2 ^ i % 2 := Nat.toNat_testBit n i
  rw [bit, Nat.shiftRight_eq_div_pow, Nat.shiftRight_eq_div_pow, pow_succ, ← Nat.div_div_eq_div_mul]
  omega

/-- What holds above all 256 places, and is carried along down from one place to the next, holds
when all places have been visited. -/
theorem foldl_places {σ β : Type} (digit : Nat → β) {step : σ → β → σ} {start : σ}
    {motive : Nat → σ → Prop} (top : motive 256 start)
    (next : ∀ i s, motive (i + 1) s → motive i (step s (digit i))) :
    motive 0 (((List.range 256).map fun i => digit (255 - i)).foldl step start) := by
  have upto : ∀ k ≤ 256, motive (256 - k)
      (((List.range k).map fun i => digit (255 - i)).foldl step start) := by
    intro k hk
    induction k with
    | zero => exact top
    | succ k ih =>
      have place : 256 - k = 256 - (k + 1) + 1 := by omega
      have index : 255 - k = 256 - (k + 1) := by omega
      have reached := ih (by omega)
      rw [place] at reached
      rw [List.range_succ, List.map_append, List.foldl_append, List.map_singleton,
        List.foldl_cons, List.foldl_nil, index]
      exact next _ _ reached
  exact upto 256 le_rfl

theorem shiftRight_top {n : Nat} (hn : n < 2 ^ 256) : n >>> 256 = 0 := by
  rw [Nat.shiftRight_eq_div_pow, Nat.div_eq_of_lt hn]

/-- What holds at zero, and is carried along from a number to its double or the number after its
double, holds at every number of 256 bits. -/
theorem foldl_bits {σ : Type} {step : σ → Bool → σ} {start : σ} {motive : Nat → σ → Prop}
    (zero : motive 0 start)
    (next : ∀ n s b, motive n s → motive (2 * n + b.toNat) (step s b)) {n : Nat}
    (hn : n < 2 ^ 256) : motive n ((bits n).foldl step start) := by
  refine foldl_places n.testBit (motive := fun i s => motive (n >>> i) s) ?top ?next
  case top => rwa [shiftRight_top hn]
  case next =>
    intro i s reached
    rw [shiftRight_eq]
    exact next _ _ _ reached

/-- The same for two numbers along both of their bits. -/
theorem foldl_zip_bits {σ : Type} {step : σ → Bool × Bool → σ} {start : σ}
    {motive : Nat → Nat → σ → Prop} (zero : motive 0 0 start)
    (next : ∀ m n s b, motive m n s → motive (2 * m + b.1.toNat) (2 * n + b.2.toNat) (step s b))
    {m n : Nat} (hm : m < 2 ^ 256) (hn : n < 2 ^ 256) :
    motive m n (((bits m).zip (bits n)).foldl step start) := by
  rw [bits, bits, List.zip_map']
  refine foldl_places (fun i => (m.testBit i, n.testBit i))
    (motive := fun i s => motive (m >>> i) (n >>> i) s) ?top ?next
  case top => rwa [shiftRight_top hm, shiftRight_top hn]
  case next =>
    intro i s reached
    rw [shiftRight_eq m, shiftRight_eq n]
    exact next _ _ s (m.testBit i, n.testBit i) reached

/-- Powers are computed by squaring and multiplying. -/
theorem power_eq {m : Nat} (hm : 1 < m) (base : Nat) {n : Nat} (hn : n < 2 ^ 256) :
    power m base n = base ^ n % m := by
  have start : 1 = base ^ 0 % m := by rw [pow_zero, Nat.mod_eq_of_lt hm]
  refine foldl_bits (motive := fun n acc => acc = base ^ n % m) start ?_ hn
  rintro n acc b rfl
  have square : base ^ n % m * (base ^ n % m) % m = base ^ (2 * n) % m := by
    rw [← Nat.mul_mod, ← pow_add, two_mul]
  cases b with
  | false => exact square
  | true =>
    simp only [square, if_true, Bool.toNat_true, pow_succ]
    exact Nat.mod_mul_mod ..

/-- Fermat's little theorem: the power with the exponent `p - 2` is the inverse. -/
theorem cast_inverse {p : Nat} [Fact p.Prime] (hp : p < 2 ^ 256) {a : Nat}
    (ha : (a : ZMod p) ≠ 0) : (inverse p a : ZMod p) = (a : ZMod p)⁻¹ := by
  have prime : p.Prime := Fact.out
  have two : 2 ≤ p := prime.two_le
  have power : (inverse p a : ZMod p) = (a : ZMod p) ^ (p - 2) := by
    rw [inverse, power_eq prime.one_lt a (by omega), ZMod.natCast_mod, Nat.cast_pow]
  have fermat := ZMod.pow_card_sub_one_eq_one ha
  rw [show p - 1 = p - 2 + 1 by omega, pow_succ] at fermat
  rw [power]
  exact eq_inv_of_mul_eq_one_left fermat

end Lineage.Curve
