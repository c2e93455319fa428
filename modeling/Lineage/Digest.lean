import Lineage.Hash.Blake3
import Lineage.Wire.Decoder

/-!
# Digests and sets of digests

Accounts, messages and the vertices of graphs are named by 256-bit digests of their contents. A
tag that comes before the content keeps the names of different kinds of things apart. A finite set
of digests is kept as the ascending list of its members, so that equal sets are equal values and a
set is written in one way.
-/

namespace Lineage

abbrev Digest := Word256

namespace Digest

/-- The digest of `content` under a tag. -/
def ofTagged (tag content : Octets) : Digest := Blake3.hash (tag ++ content)

/-- The first six octets, enough to recognise a digest in a line of text. -/
def short (d : Digest) : String := Hex.text (Word256.octets d |>.take 6)

end Digest

namespace Word256

theorem lt_irrefl (v : Word256) : ¬ v < v := List.lt_irrefl v.octets

theorem lt_trans {u v w : Word256} (h : u < v) (h' : v < w) : u < w := List.lt_trans h h'

theorem eq_of_not_lt {v w : Word256} (h : ¬ v < w) (h' : ¬ w < v) : v = w :=
  Word256.ext (List.le_antisymm (List.not_lt.1 h') (List.not_lt.1 h))

end Word256

structure DigestSet where
  toList : List Digest
  ascending : toList.Pairwise (· < ·)

namespace DigestSet

@[ext] theorem ext {s t : DigestSet} (h : s.toList = t.toList) : s = t := by
  cases s; cases t; simp_all

instance : DecidableEq DigestSet := fun s t =>
  if h : s.toList = t.toList then isTrue (ext h) else isFalse fun e => h (e ▸ rfl)

instance : Membership Digest DigestSet := ⟨fun s d => d ∈ s.toList⟩

theorem mem_def {d : Digest} {s : DigestSet} : d ∈ s ↔ d ∈ s.toList := Iff.rfl

instance (d : Digest) (s : DigestSet) : Decidable (d ∈ s) :=
  inferInstanceAs (Decidable (d ∈ s.toList))

def empty : DigestSet := ⟨[], .nil⟩

instance : EmptyCollection DigestSet := ⟨empty⟩

instance : Inhabited DigestSet := ⟨empty⟩

/-- Puts a digest into an ascending list, unless it is there. -/
def place (d : Digest) : List Digest → List Digest
  | [] => [d]
  | e :: rest => if d < e then d :: e :: rest else if d = e then e :: rest else e :: place d rest

theorem mem_place {d e : Digest} {l : List Digest} : e ∈ place d l ↔ e = d ∨ e ∈ l := by
  induction l with
  | nil => simp [place]
  | cons x l ih =>
    unfold place
    split
    · simp
    · split
      · next h => subst h; simp
      · simp only [List.mem_cons, ih]
        constructor
        · rintro (h | h | h) <;> simp [h]
        · rintro (h | h | h) <;> simp [h]

theorem ascending_place {d : Digest} {l : List Digest} (h : l.Pairwise (· < ·)) :
    (place d l).Pairwise (· < ·) := by
  induction l with
  | nil => simp [place]
  | cons x l ih =>
    rw [List.pairwise_cons] at h
    unfold place
    split
    · next hdx =>
      refine List.pairwise_cons.2 ⟨?_, List.pairwise_cons.2 h⟩
      intro e he
      rcases List.mem_cons.1 he with rfl | he
      · exact hdx
      · exact Word256.lt_trans hdx (h.1 e he)
    · next hdx =>
      split
      · exact List.pairwise_cons.2 h
      · next hne =>
        refine List.pairwise_cons.2 ⟨?_, ih h.2⟩
        intro e he
        rcases mem_place.1 he with rfl | he
        · by_cases hxe : x < e
          · exact hxe
          · exact absurd (Word256.eq_of_not_lt hdx hxe) hne
        · exact h.1 e he

def insert (d : Digest) (s : DigestSet) : DigestSet := ⟨place d s.toList, ascending_place s.ascending⟩

@[simp] theorem mem_insert {d e : Digest} {s : DigestSet} : e ∈ s.insert d ↔ e = d ∨ e ∈ s :=
  mem_place

@[simp] theorem not_mem_empty {d : Digest} : ¬ d ∈ (∅ : DigestSet) := List.not_mem_nil

/-- The union of a set and the members of a list. -/
def insertAll (s : DigestSet) (l : List Digest) : DigestSet := l.foldl (fun s d => s.insert d) s

@[simp] theorem mem_insertAll {d : Digest} {s : DigestSet} {l : List Digest} :
    d ∈ s.insertAll l ↔ d ∈ s ∨ d ∈ l := by
  induction l generalizing s with
  | nil => simp [insertAll]
  | cons x l ih =>
    have := @ih (s.insert x)
    simp only [insertAll, List.foldl_cons] at this ⊢
    rw [this]
    simp only [mem_insert, List.mem_cons]
    constructor
    · rintro ((h | h) | h) <;> simp [h]
    · rintro (h | h | h) <;> simp [h]

def ofList (l : List Digest) : DigestSet := insertAll ∅ l

@[simp] theorem mem_ofList {d : Digest} {l : List Digest} : d ∈ ofList l ↔ d ∈ l := by
  simp [ofList]

def size (s : DigestSet) : Nat := s.toList.length

def toJson (s : DigestSet) : Json := .array (s.toList.map Word256.toJson)

/-- A set may be given in any order and with repetitions. -/
def decode : Decoder DigestSet := fun j => do return ofList (← Decoder.list Decoder.word256 j)

end DigestSet

end Lineage
