import Lineage.Octets

/-!
# SHA-256

The message is padded to whole blocks of 64 octets; each block is spread into a schedule of
64 words, which drive 64 rounds on a chaining value of eight words. Also here: HMAC with this
hash.
-/

namespace Lineage.Sha256

/-- Eight working words. -/
structure State where
  a : UInt32
  b : UInt32
  c : UInt32
  d : UInt32
  e : UInt32
  f : UInt32
  g : UInt32
  h : UInt32

def State.words (s : State) : List UInt32 := [s.a, s.b, s.c, s.d, s.e, s.f, s.g, s.h]

def State.add (s t : State) : State :=
  ⟨s.a + t.a, s.b + t.b, s.c + t.c, s.d + t.d, s.e + t.e, s.f + t.f, s.g + t.g, s.h + t.h⟩

/-- The chaining value before the first block: the first 32 fractional bits of the square roots
of the first eight primes. -/
def initial : State :=
  ⟨0x6a09e667, 0xbb67ae85, 0x3c6ef372, 0xa54ff53a, 0x510e527f, 0x9b05688c, 0x1f83d9ab,
    0x5be0cd19⟩

/-- The first 32 fractional bits of the cube roots of the first 64 primes. -/
def constants : List UInt32 :=
  [0x428a2f98, 0x71374491, 0xb5c0fbcf, 0xe9b5dba5, 0x3956c25b, 0x59f111f1, 0x923f82a4, 0xab1c5ed5,
   0xd807aa98, 0x12835b01, 0x243185be, 0x550c7dc3, 0x72be5d74, 0x80deb1fe, 0x9bdc06a7, 0xc19bf174,
   0xe49b69c1, 0xefbe4786, 0x0fc19dc6, 0x240ca1cc, 0x2de92c6f, 0x4a7484aa, 0x5cb0a9dc, 0x76f988da,
   0x983e5152, 0xa831c66d, 0xb00327c8, 0xbf597fc7, 0xc6e00bf3, 0xd5a79147, 0x06ca6351, 0x14292967,
   0x27b70a85, 0x2e1b2138, 0x4d2c6dfc, 0x53380d13, 0x650a7354, 0x766a0abb, 0x81c2c92e, 0x92722c85,
   0xa2bfe8a1, 0xa81a664b, 0xc24b8b70, 0xc76c51a3, 0xd192e819, 0xd6990624, 0xf40e3585, 0x106aa070,
   0x19a4c116, 0x1e376c08, 0x2748774c, 0x34b0bcb5, 0x391c0cb3, 0x4ed8aa4a, 0x5b9cca4f, 0x682e6ff3,
   0x748f82ee, 0x78a5636f, 0x84c87814, 0x8cc70208, 0x90befffa, 0xa4506ceb, 0xbef9a3f7, 0xc67178f2]

def rotateRight (x n : UInt32) : UInt32 := (x >>> n) ||| (x <<< (32 - n))

/-- One round; `k` is the sum of the round's constant and its schedule word. -/
def round (s : State) (k : UInt32) : State :=
  let sum1 := rotateRight s.e 6 ^^^ rotateRight s.e 11 ^^^ rotateRight s.e 25
  let choice := (s.e &&& s.f) ^^^ (~~~s.e &&& s.g)
  let t1 := s.h + sum1 + choice + k
  let sum0 := rotateRight s.a 2 ^^^ rotateRight s.a 13 ^^^ rotateRight s.a 22
  let majority := (s.a &&& s.b) ^^^ (s.a &&& s.c) ^^^ (s.b &&& s.c)
  ⟨t1 + (sum0 + majority), s.a, s.b, s.c, s.d + t1, s.e, s.f, s.g⟩

/-- The next schedule word, put before the earlier ones, which stand latest first. -/
def extend (ws : List UInt32) : List UInt32 :=
  let w15 := ws.getD 14 0
  let w2 := ws.getD 1 0
  let s0 := rotateRight w15 7 ^^^ rotateRight w15 18 ^^^ (w15 >>> 3)
  let s1 := rotateRight w2 17 ^^^ rotateRight w2 19 ^^^ (w2 >>> 10)
  (ws.getD 15 0 + s0 + ws.getD 6 0 + s1) :: ws

/-- The 64 schedule words of a block. -/
def schedule (block : Octets) : List UInt32 :=
  let first := (block.pieces 4).map fun w => UInt32.ofNat w.toNat
  (Nat.repeat extend 48 first.reverse).reverse

/-- The chaining value after one more block. -/
def compress (s : State) (block : Octets) : State :=
  s.add (((constants.zipWith (· + ·) (schedule block))).foldl round s)

/-- The message, a one bit, zeros, and the length in bits in the last eight octets of a block. -/
def pad (message : Octets) : Octets :=
  message ++ 0x80 :: List.replicate ((119 - message.length % 64) % 64) 0
    ++ Octets.ofNat 8 (8 * message.length)

def wordOctets (w : UInt32) : Octets := Octets.ofNat 4 w.toNat

def State.toWord256 (s : State) : Word256 :=
  ⟨s.words.flatMap wordOctets, by simp [State.words, wordOctets]⟩

/-- The digest of a message. -/
def hash (message : Octets) : Word256 :=
  (((pad message).pieces 64).foldl compress initial).toWord256

/-- HMAC for a key of at most 64 octets: the hash of the outer-padded key and of the hash of the
inner-padded key and the message. -/
def mac (key message : Octets) : Word256 :=
  let key := key ++ List.replicate (64 - key.length) 0
  let inner := hash (key.map (· ^^^ 0x36) ++ message)
  hash (key.map (· ^^^ 0x5c) ++ inner.octets)

end Lineage.Sha256
