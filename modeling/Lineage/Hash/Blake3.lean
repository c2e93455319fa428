import Lineage.Octets

/-!
# BLAKE3

The input is cut into chunks of 1024 octets, each a chain of blocks of 64 octets. Chunks are the
leaves of a binary tree whose left subtrees are full; the digest is the output of the root. Only
the plain 32-octet digest is defined, without keys.
-/

namespace Lineage.Blake3

/-- Four lanes of one word each. -/
structure Row where
  a : UInt32
  b : UInt32
  c : UInt32
  d : UInt32

namespace Row

def map₂ (f : UInt32 → UInt32 → UInt32) (x y : Row) : Row :=
  ⟨f x.a y.a, f x.b y.b, f x.c y.c, f x.d y.d⟩

def map (f : UInt32 → UInt32) (x : Row) : Row := ⟨f x.a, f x.b, f x.c, f x.d⟩

def add : Row → Row → Row := map₂ (· + ·)

def xor : Row → Row → Row := map₂ (· ^^^ ·)

/-- Each lane is rotated to the right by `n` bits. -/
def rotateRight (x : Row) (n : UInt32) : Row := x.map fun w => (w >>> n) ||| (w <<< (32 - n))

/-- The lanes move to the left by one place, around the end. -/
def turn (x : Row) : Row := ⟨x.b, x.c, x.d, x.a⟩

def words (x : Row) : List UInt32 := [x.a, x.b, x.c, x.d]

end Row

/-- The sixteen words that the rounds work on. -/
structure Grid where
  top : Row
  upper : Row
  lower : Row
  bottom : Row

/-- All four columns are mixed at once, with one message word for each half of the mixing. -/
def Grid.mix (g : Grid) (x y : Row) : Grid :=
  let top := (g.top.add g.upper).add x
  let bottom := (g.bottom.xor top).rotateRight 16
  let lower := g.lower.add bottom
  let upper := (g.upper.xor lower).rotateRight 12
  let top := (top.add upper).add y
  let bottom := (bottom.xor top).rotateRight 8
  let lower := lower.add bottom
  let upper := (upper.xor lower).rotateRight 7
  ⟨top, upper, lower, bottom⟩

/-- The diagonals become columns. -/
def Grid.slant (g : Grid) : Grid :=
  ⟨g.top, g.upper.turn, g.lower.turn.turn, g.bottom.turn.turn.turn⟩

def Grid.unslant (g : Grid) : Grid :=
  ⟨g.top, g.upper.turn.turn.turn, g.lower.turn.turn, g.bottom.turn⟩

/-- Picks the message words at four places. -/
def pick (m : List UInt32) (i j k l : Nat) : Row :=
  ⟨m.getD i 0, m.getD j 0, m.getD k 0, m.getD l 0⟩

/-- One round mixes the columns and then the diagonals. -/
def round (g : Grid) (m : List UInt32) : Grid :=
  let g := g.mix (pick m 0 2 4 6) (pick m 1 3 5 7)
  (g.slant.mix (pick m 8 10 12 14) (pick m 9 11 13 15)).unslant

/-- The order in which the next round takes the message words of this one. -/
def reorder (m : List UInt32) : List UInt32 :=
  [2, 6, 3, 10, 7, 0, 4, 13, 1, 11, 12, 5, 9, 14, 15, 8].map fun i => m.getD i 0

/-- Runs `n` rounds, reordering the message words between them. -/
def rounds : Nat → Grid → List UInt32 → Grid
  | 0, g, _ => g
  | n + 1, g, m => rounds n (round g m) (reorder m)

/-- A chaining value: eight words. -/
structure Chain where
  left : Row
  right : Row

def initial : Chain :=
  ⟨⟨0x6a09e667, 0xbb67ae85, 0x3c6ef372, 0xa54ff53a⟩,
    ⟨0x510e527f, 0x9b05688c, 0x1f83d9ab, 0x5be0cd19⟩⟩

def Chain.words (c : Chain) : List UInt32 := c.left.words ++ c.right.words

/-- What a block stands for in the tree is told by one bit each. -/
def chunkStart : UInt32 := 1
def chunkEnd : UInt32 := 2
def parentBlock : UInt32 := 4
def rootBlock : UInt32 := 8

/-- One application of the compression function, not yet carried out: a node of the tree is
compressed in one way when it is the root and in another when it is not. -/
structure Node where
  chain : Chain
  block : List UInt32
  counter : Nat
  length : Nat
  flags : UInt32

def Node.compress (n : Node) : Chain :=
  let g := rounds 7
    ⟨n.chain.left, n.chain.right, initial.left,
      ⟨UInt32.ofNat n.counter, UInt32.ofNat (n.counter / UInt32.size), UInt32.ofNat n.length, n.flags⟩⟩
    n.block
  ⟨g.top.xor g.lower, g.upper.xor g.bottom⟩

/-- The sixteen words of a block, least significant octet first, filled up with zeros. -/
def blockWords (block : Octets) : List UInt32 :=
  (List.range 16).map fun i => UInt32.ofNat (Octets.toNat ((block.drop (4 * i)).take 4).reverse)

/-- The last node of a chunk; the blocks before it are chained. -/
def chunkNode (index : Nat) : Chain → UInt32 → List Octets → Node
  | chain, start, [] => ⟨chain, blockWords [], index, 0, start ||| chunkEnd⟩
  | chain, start, [b] => ⟨chain, blockWords b, index, b.length, start ||| chunkEnd⟩
  | chain, start, b :: bs =>
    chunkNode index (Node.compress ⟨chain, blockWords b, index, b.length, start⟩) 0 bs

def leaf (chunk : Octets) (index : Nat) : Node :=
  chunkNode index initial chunkStart (chunk.pieces 64)

def parentNode (l r : Node) : Node :=
  ⟨initial, l.compress.words ++ r.compress.words, 0, 64, parentBlock⟩

/-- Joins neighbours; a node without a neighbour moves up unchanged. -/
def joinPairs : List Node → List Node
  | l :: r :: rest => parentNode l r :: joinPairs rest
  | rest => rest

/-- Joins neighbours `height` times, which leaves one node when the tree is no higher. -/
def root (height : Nat) (leaves : List Node) : Node :=
  (Nat.repeat joinPairs height leaves).headD (leaf [] 0)

def wordOctets (w : UInt32) : Octets := (Octets.ofNat 4 w.toNat).reverse

/-- The digest of a message. -/
def hash (message : Octets) : Word256 :=
  let leaves := (message.pieces 1024).zipIdx.map fun (chunk, index) => leaf chunk index
  let node := root leaves.length leaves
  ⟨(Node.compress ⟨node.chain, node.block, 0, node.length, node.flags ||| rootBlock⟩).words.flatMap
    wordOctets, by simp [Chain.words, Row.words, wordOctets]⟩

end Lineage.Blake3
