/-!
# The curve P-256

The points of y² = x³ - 3x + b over the field of `fieldPrime` elements form a group of prime
order `groupOrder`. Field elements are natural numbers below the prime. Sums and multiples are
computed in Jacobian coordinates, where (x, y, z) stands for the point (x / z², y / z³) and z = 0
for the neutral element, so that one division ends the computation.
-/

namespace Lineage.Curve

/-- The modulus of the coordinates. -/
def fieldPrime : Nat := 0xffffffff00000001000000000000000000000000ffffffffffffffffffffffff

/-- The number of points of the curve, the neutral element included. -/
def groupOrder : Nat := 0xffffffff00000000ffffffffffffffffbce6faada7179e84f3b9cac2fc632551

/-- The constant term of the equation. -/
def constantTerm : Nat := 0x5ac635d8aa3a93e7b3ebbd55769886bc651d06b0cc53b0f63bce3c3e27d2604b

/-- The bits of a 256-bit number, the most significant first. -/
def bits (n : Nat) : List Bool := (List.range 256).map fun i => n.testBit (255 - i)

/-- The power of `base` to an exponent of at most 256 bits, modulo `m`. -/
def power (m base exponent : Nat) : Nat :=
  (bits exponent).foldl (fun acc b =>
    let square := acc * acc % m
    if b then square * base % m else square) 1

/-- The inverse of `a` modulo a prime `m`: by Fermat's little theorem the power `m - 2`. -/
def inverse (m a : Nat) : Nat := power m a (m - 2)

def mul (a b : Nat) : Nat := a * b % fieldPrime

def add (a b : Nat) : Nat := (a + b) % fieldPrime

/-- The difference of two field elements. -/
def sub (a b : Nat) : Nat := (a + (fieldPrime - b)) % fieldPrime

/-- Whether the affine point (x, y) has reduced coordinates and satisfies the equation. -/
def OnCurve (x y : Nat) : Prop :=
  x < fieldPrime ∧ y < fieldPrime ∧
    y * y % fieldPrime = (x * x * x + (fieldPrime - 3) * x + constantTerm) % fieldPrime

instance (x y : Nat) : Decidable (OnCurve x y) := by unfold OnCurve; infer_instance

/-- A point in Jacobian coordinates. -/
structure Jacobian where
  x : Nat
  y : Nat
  z : Nat

namespace Jacobian

def neutral : Jacobian := ⟨1, 1, 0⟩

def ofAffine (x y : Nat) : Jacobian := ⟨x, y, 1⟩

/-- The point that generates the group. -/
def generator : Jacobian :=
  ofAffine 0x6b17d1f2e12c4247f8bce6e563a440f277037d812deb33a0f4a13945d898c296
    0x4fe342e2fe1a7f9b8ee7eb4a7c0f9e162bce33576b315ececbb6406837bf51f5

def double (p : Jacobian) : Jacobian :=
  let zz := mul p.z p.z
  let yy := mul p.y p.y
  let xyy := mul p.x yy
  let slope := mul 3 (mul (sub p.x zz) (add p.x zz))
  let x := sub (mul slope slope) (mul 8 xyy)
  ⟨x, sub (mul slope (sub (mul 4 xyy) x)) (mul 8 (mul yy yy)), mul 2 (mul p.y p.z)⟩

/-- The sum of two points; equal and opposite points are told apart from the general case. -/
def sum (p q : Jacobian) : Jacobian :=
  if p.z = 0 then q
  else if q.z = 0 then p
  else
    let pzz := mul p.z p.z
    let qzz := mul q.z q.z
    let px := mul p.x qzz
    let qx := mul q.x pzz
    let py := mul p.y (mul q.z qzz)
    let qy := mul q.y (mul p.z pzz)
    let h := sub qx px
    let r := sub qy py
    if h = 0 then if r = 0 then p.double else neutral
    else
      let hh := mul h h
      let hhh := mul h hh
      let v := mul px hh
      let x := sub (sub (mul r r) hhh) (mul 2 v)
      ⟨x, sub (mul r (sub v x)) (mul py hhh), mul h (mul p.z q.z)⟩

/-- The multiple `k` of a point, by doubling and adding along the bits of `k`. -/
def multiple (k : Nat) (p : Jacobian) : Jacobian :=
  (bits k).foldl (fun acc b => if b then acc.double.sum p else acc.double) neutral

/-- The sum of the multiple `k` of `p` and the multiple `l` of `q`, sharing the doublings. -/
def combination (k : Nat) (p : Jacobian) (l : Nat) (q : Jacobian) : Jacobian :=
  let both := p.sum q
  ((bits k).zip (bits l)).foldl (fun acc b =>
    match b with
    | (true, true) => acc.double.sum both
    | (true, false) => acc.double.sum p
    | (false, true) => acc.double.sum q
    | (false, false) => acc.double) neutral

/-- The affine coordinates of a point other than the neutral element. -/
def affine? (p : Jacobian) : Option (Nat × Nat) :=
  if p.z = 0 then none
  else
    let w := inverse fieldPrime p.z
    let ww := mul w w
    some (mul p.x ww, mul p.y (mul w ww))

end Jacobian

end Lineage.Curve
