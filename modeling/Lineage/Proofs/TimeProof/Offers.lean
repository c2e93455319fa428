import Lineage.Proofs.TimeProof.Counting
import Mathlib.Data.List.Basic

/-!
# Whatever is offered to a time proof

A time proof by itself does not ask who has sent a message, or whether what it refers to has been
counted or is there at all. It still counts without a gap: a message that it has counted before is
refused, and any other one gets a number that is at most one beyond the greatest. So the greatest
number is at most the number of counted messages, and it fits into a word as long as that does.
-/
namespace Lineage

theorem foldl_max_zero (l : List Nat) : l.foldl max 0 = l.max?.getD 0 := by
  rw [List.foldl_max]
  exact Nat.zero_max _

theorem Steps.toNat_foldl_max (l : List Steps) (a : Steps) :
    (l.foldl max a).toNat = (l.map UInt64.toNat).foldl max a.toNat := by
  induction l generalizing a with
  | nil => rfl
  | cons n l ih => rw [List.foldl_cons, ih, UInt64.toNat_max, List.map_cons, List.foldl_cons]

namespace TimeProof

variable {t t' : TimeProof} {m : Message} {n : Steps}

/-- Offers a message. A time proof that does not count it stays as it is. -/
def offer (t : TimeProof) (m : Message) : TimeProof × Except Dag.InsertError Steps :=
  match t.extend m with
  | .ok (t', n) => (t', .ok n)
  | .error e => (t, .error e)

/-- Offers messages one after the other, whatever comes of each. -/
def offerAll (t : TimeProof) : List Message → TimeProof
  | [] => t
  | m :: rest => (t.offer m).1.offerAll rest

/-- All numbers that have been given, in the order in which they were. -/
def numbers (t : TimeProof) : List Nat := t.sequences.vertices.map (·.value.toNat)

/-- The numbers of the messages that a message names as its sender's own, as far as they have been
counted. -/
def ownNumbers (t : TimeProof) (m : Message) : List Nat :=
  m.ownReferences.filterMap fun r => (t.sequence? r.message).map UInt64.toNat

/-- The numbers that have been given are those from one to the greatest. -/
structure Consistent (t : TimeProof) : Prop where
  greatest : t.maxSequence.toNat = t.numbers.max?.getD 0
  gapless : ∀ k, k ∈ t.numbers ↔ 1 ≤ k ∧ k ≤ t.maxSequence.toNat
  bounded : t.maxSequence.toNat ≤ t.size

/-- What comes of offering a message: it is refused if it has been counted, and otherwise gets the
number after the greatest one among those of its sender's own that it refers to. -/
inductive Offered (t : TimeProof) (m : Message) : TimeProof × Except Dag.InsertError Steps → Prop where
  | known (known : m.id ∈ t.sequences) : Offered t m (t, .error (.duplicate m.id))
  | counted {t' : TimeProof} {n : Steps} (fresh : m.id ∉ t.sequences)
      (extension : t.Extension m t' n) (number : n.toNat = 1 + (t.ownNumbers m).max?.getD 0)
      (later : ∀ k ∈ t.ownNumbers m, k < n.toNat) : Offered t m (t', .ok n)

theorem offer_of_counted (h : m.id ∈ t.sequences) :
    t.offer m = (t, .error (.duplicate m.id)) := by
  have refused : t.extend m = .error (.duplicate m.id) := by
    rw [extend_eq, Dag.insert, dif_pos h]
    rfl
  rw [offer, refused]

theorem offer_of_extension (e : t.Extension m t' n) : t.offer m = (t', .ok n) := by
  rw [offer, extend_eq_ok_iff.2 e]

theorem exists_extension (fresh : m.id ∉ t.sequences) : ∃ t' n, t.Extension m t' n := by
  obtain ⟨t', n, h⟩ := exists_extend fresh
  exact ⟨t', n, extend_eq_ok_iff.1 h⟩

theorem mem_numbers {k : Nat} : k ∈ t.numbers ↔ ∃ d n, t.sequence? d = some n ∧ n.toNat = k := by
  simp only [numbers, List.mem_map, Dag.mem_vertices, sequence?, Dag.value?_eq_some_iff]
  constructor
  · rintro ⟨v, hv, hk⟩
    exact ⟨v.id, v.value, ⟨v, hv, rfl, rfl⟩, hk⟩
  · rintro ⟨d, n, ⟨v, hv, -, rfl⟩, hk⟩
    exact ⟨v, hv, hk⟩

theorem toNat_latest (t : TimeProof) (m : Message) :
    (t.latest (t.countedReferences m)).toNat = (t.ownNumbers m).max?.getD 0 := by
  rw [latest, Steps.toNat_foldl_max, UInt64.toNat_zero, foldl_max_zero, countedReferences,
    List.filterMap_filter, List.filterMap_map, List.map_filterMap, ownNumbers]
  congr 2
  refine List.filterMap_congr fun r _ => ?_
  by_cases counted : r.message ∈ t.sequences
  · simp [counted]
  · have none : t.sequence? r.message = none := Dag.value?_eq_none.2 counted
    simp [counted, none]

theorem Extension.numbers (e : t.Extension m t' n) : t'.numbers = t.numbers ++ [n.toNat] := by
  rw [TimeProof.numbers, Dag.vertices_insert e.sequences, List.map_append]
  rfl

theorem Extension.size (e : t.Extension m t' n) : t'.size = t.size + 1 := Dag.size_insert e.sequences

namespace Consistent

theorem ownNumbers_le (h : t.Consistent) : (t.ownNumbers m).max?.getD 0 ≤ t.maxSequence.toNat := by
  rw [← toNat_latest, ← UInt64.le_iff_toNat_le, latest_le_iff]
  intro d _ n hn
  exact UInt64.le_iff_toNat_le.2 ((h.gapless n.toNat).1 (mem_numbers.2 ⟨d, n, hn, rfl⟩)).2

/-- As long as there is room for one more message, the number that it gets is exact. -/
theorem number (h : t.Consistent) (room : t.size < Steps.maximum) (e : t.Extension m t' n) :
    n.toNat = 1 + (t.ownNumbers m).max?.getD 0 := by
  have fits : (t.ownNumbers m).max?.getD 0 < Steps.maximum :=
    Nat.lt_of_le_of_lt (h.ownNumbers_le.trans h.bounded) room
  rw [e.sequence_eq, UInt64.toNat_add, toNat_latest]
  exact Nat.mod_eq_of_lt (Nat.add_lt_of_lt_sub' fits)

theorem extend (h : t.Consistent) (room : t.size < Steps.maximum) (e : t.Extension m t' n) :
    t'.Consistent := by
  have number := h.number room e
  have own : (t.ownNumbers m).max?.getD 0 ≤ t.maxSequence.toNat := h.ownNumbers_le
  have greatest : t'.maxSequence.toNat = max t.maxSequence.toNat n.toNat := by
    rw [e.maxSequence, UInt64.toNat_max]
  constructor
  · rw [greatest, h.greatest, e.numbers, ← foldl_max_zero, ← foldl_max_zero, List.foldl_append]
    rfl
  · intro k
    rw [greatest, e.numbers, List.mem_append, h.gapless, List.mem_singleton]
    omega
  · have := h.bounded
    rw [greatest, e.size]
    omega

theorem offered (h : t.Consistent) (room : t.size < Steps.maximum) (m : Message) :
    Offered t m (t.offer m) := by
  by_cases known : m.id ∈ t.sequences
  · rw [offer_of_counted known]
    exact .known known
  · obtain ⟨t', n, e⟩ := exists_extension known
    have number := h.number room e
    rw [offer_of_extension e]
    refine .counted known e number fun k hk => ?_
    rw [number, Nat.lt_one_add_iff]
    exact List.le_max?_getD_of_mem hk

theorem offer (h : t.Consistent) (room : t.size < Steps.maximum) (m : Message) :
    (t.offer m).1.Consistent ∧ (t.offer m).1.size ≤ t.size + 1 := by
  have offered := h.offered room m
  generalize t.offer m = r at offered
  cases offered with
  | known _ => exact ⟨h, Nat.le_succ _⟩
  | counted _ e _ _ => exact ⟨h.extend room e, e.size.le⟩

theorem offerAll (h : t.Consistent) (ms : List Message)
    (room : t.size + ms.length ≤ Steps.maximum) :
    (t.offerAll ms).Consistent ∧ (t.offerAll ms).size ≤ t.size + ms.length := by
  induction ms generalizing t with
  | nil => exact ⟨h, Nat.le_refl _⟩
  | cons m ms ih =>
    rw [List.length_cons] at room ⊢
    obtain ⟨first, size⟩ := h.offer (by omega) m
    obtain ⟨rest, size'⟩ := ih first (by omega)
    exact ⟨rest, by rw [TimeProof.offerAll]; omega⟩

end Consistent

theorem consistent_start (root anchor : Digest) : (start root anchor).Consistent where
  greatest := rfl
  gapless := by
    intro k
    show k ∈ [] ↔ 1 ≤ k ∧ k ≤ 0
    simp only [List.not_mem_nil, false_iff]
    omega
  bounded := Nat.le_refl 0

@[simp] theorem size_start (root anchor : Digest) : (start root anchor).size = 0 := rfl

/-- Whatever has been offered to a new time proof, its numbers are those from one to the greatest.
Just counted messages are refused, and others get the number after the greatest they build on. -/
theorem offers_consistent (root anchor : Digest) (ms : List Message)
    (room : ms.length < UInt64.size) :
    ((start root anchor).offerAll ms).Consistent ∧
    ∀ before m after, ms = before ++ m :: after →
      Offered ((start root anchor).offerAll before) m
        (((start root anchor).offerAll before).offer m) := by
  have initial := consistent_start root anchor
  have fits : ms.length ≤ Steps.maximum := Nat.le_pred_of_lt room
  refine ⟨(initial.offerAll ms (by rwa [size_start, Nat.zero_add])).1, ?_⟩
  rintro before m after rfl
  rw [List.length_append, List.length_cons] at fits
  obtain ⟨reached, size⟩ := initial.offerAll before (by rw [size_start]; omega)
  rw [size_start] at size
  exact reached.offered (by omega) m

end TimeProof

namespace Sample

/-- A message that nobody has signed. -/
def stray (id sender : Nat) (references : List (Nat × Nat)) : Message where
  id := .ofNat id
  sender := .ofNat sender
  body := .text []
  references := references.map fun r => ⟨.ofNat r.1, .ofNat r.2⟩
  signature := []

/-- The first message refers to itself and to the second one before that is there, and the third
one names its own sender for the second one. -/
def strays : List Message :=
  [stray 1 8 [(8, 1), (8, 2)], stray 2 8 [(8, 1)], stray 3 9 [(9, 2)]]

end Sample

namespace TimeProof

open Sample

/-- None of this is refused, and when the first message comes again, it is. -/
theorem offers_consistent_strays :
    (strays ++ [stray 1 8 []]).length < UInt64.size ∧
    ((start (.ofNat 8) (.ofNat 1)).offerAll (strays ++ [stray 1 8 []])).Consistent ∧
    ((start (.ofNat 8) (.ofNat 1)).offerAll strays).numbers = [1, 2, 3] ∧
    Offered ((start (.ofNat 8) (.ofNat 1)).offerAll strays) (stray 1 8 [])
      (((start (.ofNat 8) (.ofNat 1)).offerAll strays).offer (stray 1 8 [])) := by
  have room : (strays ++ [stray 1 8 []]).length < UInt64.size := by decide
  obtain ⟨consistent, offered⟩ :=
    offers_consistent (.ofNat 8) (.ofNat 1) (strays ++ [stray 1 8 []]) room
  exact ⟨room, consistent, by decide, offered strays (stray 1 8 []) [] rfl⟩

end TimeProof

end Lineage
