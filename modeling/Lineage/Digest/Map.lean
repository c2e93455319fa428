import Lineage.Digest

/-!
# Maps keyed by digests

A finite map is kept as the list of its entries in ascending order of their keys.
-/

namespace Lineage

structure DigestMap (α : Type) where
  entries : List (Digest × α)
  ascending : entries.Pairwise fun e f => e.1 < f.1

namespace DigestMap

def empty : DigestMap α := ⟨[], .nil⟩

instance : EmptyCollection (DigestMap α) := ⟨empty⟩

def get? (m : DigestMap α) (key : Digest) : Option α := m.entries.lookup key

instance : Membership Digest (DigestMap α) := ⟨fun m key => (m.get? key).isSome⟩

instance (key : Digest) (m : DigestMap α) : Decidable (key ∈ m) :=
  inferInstanceAs (Decidable ((m.get? key).isSome = true))

/-- Puts an entry into an ascending list, in the place of the entry with its key. -/
def place (key : Digest) (a : α) : List (Digest × α) → List (Digest × α)
  | [] => [(key, a)]
  | e :: rest =>
    if key < e.1 then (key, a) :: e :: rest
    else if key = e.1 then (key, a) :: rest
    else e :: place key a rest

theorem key_of_mem_place {key : Digest} {a : α} {l : List (Digest × α)} {e : Digest × α}
    (h : e ∈ place key a l) : e.1 = key ∨ e ∈ l := by
  induction l with
  | nil => simp_all [place]
  | cons x l ih =>
    unfold place at h
    split at h
    · rcases List.mem_cons.1 h with rfl | h
      · exact .inl rfl
      · exact .inr h
    · split at h
      · rcases List.mem_cons.1 h with rfl | h
        · exact .inl rfl
        · exact .inr (List.mem_cons_of_mem _ h)
      · rcases List.mem_cons.1 h with rfl | h
        · exact .inr (List.mem_cons_self ..)
        · exact (ih h).imp id (List.mem_cons_of_mem _)

theorem ascending_place {key : Digest} {a : α} {l : List (Digest × α)}
    (h : l.Pairwise fun e f => e.1 < f.1) :
    (place key a l).Pairwise fun e f => e.1 < f.1 := by
  induction l with
  | nil => simp [place]
  | cons x l ih =>
    rw [List.pairwise_cons] at h
    unfold place
    split
    · next hlt =>
      refine List.pairwise_cons.2 ⟨?_, List.pairwise_cons.2 h⟩
      intro e he
      rcases List.mem_cons.1 he with rfl | he
      · exact hlt
      · exact Word256.lt_trans hlt (h.1 e he)
    · next hlt =>
      split
      · next heq => exact List.pairwise_cons.2 ⟨fun e he => heq ▸ h.1 e he, h.2⟩
      · next hne =>
        refine List.pairwise_cons.2 ⟨?_, ih h.2⟩
        intro e he
        rcases key_of_mem_place he with heq | he
        · rw [heq]
          by_cases hx : x.1 < key
          · exact hx
          · exact absurd (Word256.eq_of_not_lt hlt hx) hne
        · exact h.1 e he

def insert (m : DigestMap α) (key : Digest) (a : α) : DigestMap α :=
  ⟨place key a m.entries, ascending_place m.ascending⟩

/-- The keys in ascending order. -/
def keys (m : DigestMap α) : List Digest := m.entries.map (·.1)

theorem mem_def {key : Digest} {m : DigestMap α} : key ∈ m ↔ (m.get? key).isSome := Iff.rfl

theorem mem_iff_get? {key : Digest} {m : DigestMap α} : key ∈ m ↔ ∃ a, m.get? key = some a := by
  rw [mem_def, Option.isSome_iff_exists]

theorem get?_eq_none {key : Digest} {m : DigestMap α} : m.get? key = none ↔ key ∉ m := by
  rw [mem_def, Option.not_isSome_iff_eq_none]

theorem lookup_cons (k : Digest) (e : Digest × α) (l : List (Digest × α)) :
    (e :: l).lookup k = if k = e.1 then some e.2 else l.lookup k := by
  obtain ⟨key, a⟩ := e
  by_cases h : k = key
  · rw [h, List.lookup_cons_self, if_pos rfl]
  · have hb : (k == key) = false := by simpa using h
    rw [List.lookup_cons, hb, if_neg h]

theorem lookup_place (key k : Digest) (a : α) (l : List (Digest × α)) :
    (place key a l).lookup k = if k = key then some a else l.lookup k := by
  induction l with
  | nil => rw [place, lookup_cons]
  | cons e l ih =>
    unfold place
    split
    · rw [lookup_cons]
    · split
      · next heq =>
        rw [lookup_cons, lookup_cons, heq]
        by_cases h : k = e.1 <;> simp [h]
      · next hne =>
        rw [lookup_cons, lookup_cons, ih]
        by_cases hk : k = e.1
        · have h : k ≠ key := fun h => hne (h ▸ hk)
          rw [if_pos hk, if_neg h]
          simp [hk]
        · rw [if_neg hk, if_neg hk]

theorem get?_insert (m : DigestMap α) (key k : Digest) (a : α) :
    (m.insert key a).get? k = if k = key then some a else m.get? k :=
  lookup_place key k a m.entries

@[simp] theorem get?_insert_self (m : DigestMap α) (key : Digest) (a : α) :
    (m.insert key a).get? key = some a := by simp [get?_insert]

theorem get?_insert_of_ne (m : DigestMap α) {key k : Digest} (a : α) (h : k ≠ key) :
    (m.insert key a).get? k = m.get? k := by simp [get?_insert, h]

theorem mem_insert {m : DigestMap α} {key k : Digest} {a : α} :
    k ∈ m.insert key a ↔ k = key ∨ k ∈ m := by
  by_cases h : k = key <;> simp [mem_def, get?_insert, h]

/-- The entries of a map are what it answers, because no two of them have one key. -/
theorem mem_entries_iff {m : DigestMap α} {key : Digest} {a : α} :
    (key, a) ∈ m.entries ↔ m.get? key = some a := by
  obtain ⟨l, hl⟩ := m
  show (key, a) ∈ l ↔ l.lookup key = some a
  induction l with
  | nil => simp
  | cons e l ih =>
    rw [List.pairwise_cons] at hl
    rw [lookup_cons, List.mem_cons, Prod.ext_iff]
    by_cases hk : key = e.1
    · have hout : (key, a) ∉ l := fun h => Word256.lt_irrefl key (by simpa [hk] using hl.1 _ h)
      simp [hk, hk ▸ hout, eq_comm]
    · simp [hk, ih hl.2]

end DigestMap

end Lineage
