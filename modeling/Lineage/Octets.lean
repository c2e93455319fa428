/-!
# Octet strings

An octet string is a list of octets. Numbers are written into octet strings with the most
significant octet first, in as many octets as the caller asks for; long strings are cut into
pieces of equal length.
-/

namespace Lineage

abbrev Octets := List UInt8

namespace Octets

/-- The number an octet string spells, most significant octet first. -/
def toNat (b : Octets) : Nat := b.foldl (fun n x => n * 256 + x.toNat) 0

/-- The last `width` base-256 digits of `n`, most significant first. -/
def ofNat : Nat → Nat → Octets
  | 0, _ => []
  | width + 1, n => ofNat width (n / 256) ++ [UInt8.ofNat (n % 256)]

@[simp] theorem length_ofNat (width n : Nat) : (ofNat width n).length = width := by
  induction width generalizing n with
  | zero => rfl
  | succ w ih => simp [ofNat, ih]

@[simp] theorem toNat_nil : toNat [] = 0 := rfl

theorem toNat_append_singleton (b : Octets) (x : UInt8) :
    toNat (b ++ [x]) = toNat b * 256 + x.toNat := by simp [toNat]

/-- The number of octet strings of a width. -/
def capacity : Nat → Nat
  | 0 => 1
  | width + 1 => 256 * capacity width

/-- Writing a number and reading it back keeps as much of it as fits. -/
theorem toNat_ofNat (width n : Nat) : toNat (ofNat width n) = n % capacity width := by
  induction width generalizing n with
  | zero => simp [ofNat, capacity, Nat.mod_one]
  | succ w ih =>
    rw [ofNat, toNat_append_singleton, ih, capacity, Nat.mod_mul]
    have h : (UInt8.ofNat (n % 256)).toNat = n % 256 := by simp
    omega

/-- The pieces of `width` octets that a string falls into; the last one may be shorter. -/
def pieces (width : Nat) (b : Octets) : List Octets :=
  (List.range ((b.length + width - 1) / width)).map fun i => (b.drop (width * i)).take width

/-- The UTF-8 form of a text. -/
def ofText (cs : List Char) : Octets := cs.flatMap String.utf8EncodeChar

@[simp] theorem ofText_nil : ofText [] = [] := rfl

@[simp] theorem ofText_append (s t : List Char) : ofText (s ++ t) = ofText s ++ ofText t := by
  simp [ofText]

end Octets

/-- A word of 256 bits, as 32 octets. Digests, curve coordinates and secret scalars are such
words; they are ordered as octet strings. -/
structure Word256 where
  octets : Octets
  length_octets : octets.length = 32
  deriving DecidableEq

namespace Word256

@[ext] theorem ext {v w : Word256} (h : v.octets = w.octets) : v = w := by
  cases v; cases w; simp_all

instance : LT Word256 := ⟨fun v w => v.octets < w.octets⟩

instance (v w : Word256) : Decidable (v < w) :=
  inferInstanceAs (Decidable (v.octets < w.octets))

theorem lt_def {v w : Word256} : v < w ↔ v.octets < w.octets := Iff.rfl

/-- The word spelled by an octet string of the right length. -/
def ofOctets? (b : Octets) : Option Word256 :=
  if h : b.length = 32 then some ⟨b, h⟩ else none

def ofNat (n : Nat) : Word256 := ⟨Octets.ofNat 32 n, Octets.length_ofNat 32 n⟩

def toNat (w : Word256) : Nat := w.octets.toNat

theorem toNat_ofNat (n : Nat) : (ofNat n).toNat = n % Octets.capacity 32 :=
  Octets.toNat_ofNat 32 n

/-- The word of 32 zero octets. -/
instance : Inhabited Word256 := ⟨ofNat 0⟩

end Word256

end Lineage
