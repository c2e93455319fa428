import Lineage.Digest.Map
import Mathlib.Data.List.Sort

/-!
# Ascending lists are determined by their members

Sets and maps of digests are kept as ascending lists, so two of them are equal as soon as they
answer alike. The same holds of what is read off the entries of a map one after the other.
-/
namespace Lineage

/-- Lists that ascend by a key and have the same members are equal. -/
theorem Digest.eq_of_ascending {α : Type} {key : α → Digest} {l l' : List α}
    (h : l.Pairwise fun a b => key a < key b) (h' : l'.Pairwise fun a b => key a < key b)
    (mem : ∀ a, a ∈ l ↔ a ∈ l') : l = l' := by
  have irrefl : Std.Irrefl fun a b : α => key a < key b := ⟨fun a => Word256.lt_irrefl (key a)⟩
  have antisymm : Std.Antisymm fun a b : α => key a < key b :=
    ⟨fun a _ hab hba => absurd (Word256.lt_trans hab hba) (Word256.lt_irrefl (key a))⟩
  exact h.eq_of_mem_iff h' mem

theorem DigestSet.ext_mem {s t : DigestSet} (h : ∀ d, d ∈ s ↔ d ∈ t) : s = t :=
  DigestSet.ext (Digest.eq_of_ascending s.ascending t.ascending h)

theorem DigestSet.nodup (s : DigestSet) : s.toList.Nodup := by
  refine s.ascending.imp ?_
  rintro d _ hlt rfl
  exact Word256.lt_irrefl d hlt

namespace DigestMap

variable {α β : Type} {m n : DigestMap α}

/-- What is read off the entries depends on what is read off the answers. -/
theorem map_entries_congr {f g : Digest → α → β}
    (h : ∀ key, (m.get? key).map (f key) = (n.get? key).map (g key)) :
    m.entries.map (fun e => (e.1, f e.1 e.2)) = n.entries.map fun e => (e.1, g e.1 e.2) := by
  have ascends : ∀ (m : DigestMap α) (f : Digest → α → β),
      (m.entries.map fun e => (e.1, f e.1 e.2)).Pairwise fun a b => a.1 < b.1 := by
    intro m f
    rw [List.pairwise_map]
    exact m.ascending
  have mem_map : ∀ (m : DigestMap α) (f : Digest → α → β) (key : Digest) (b : β),
      (key, b) ∈ m.entries.map (fun e => (e.1, f e.1 e.2)) ↔ (m.get? key).map (f key) = some b := by
    intro m f key b
    rw [List.mem_map, Option.map_eq_some_iff]
    constructor
    · rintro ⟨⟨k, a⟩, hmem, heq⟩
      cases heq
      exact ⟨a, mem_entries_iff.1 hmem, rfl⟩
    · rintro ⟨a, ha, rfl⟩
      exact ⟨(key, a), mem_entries_iff.2 ha, rfl⟩
  refine Digest.eq_of_ascending (ascends m f) (ascends n g) ?_
  rintro ⟨key, b⟩
  rw [mem_map, mem_map, h]

theorem mem_keys {key : Digest} : key ∈ m.keys ↔ key ∈ m := by
  rw [keys, List.mem_map, mem_iff_get?]
  constructor
  · rintro ⟨⟨k, a⟩, hmem, rfl⟩
    exact ⟨a, mem_entries_iff.1 hmem⟩
  · rintro ⟨a, ha⟩
    exact ⟨(key, a), mem_entries_iff.2 ha, rfl⟩

/-- The first entry of a map has the least key. -/
theorem exists_least {key : Digest} (h : key ∈ m) : ∃ least a rest,
    m.entries = (least, a) :: rest ∧ m.get? least = some a ∧ ∀ k ∈ m, k = least ∨ least < k := by
  obtain ⟨b, hb⟩ := mem_iff_get?.1 h
  cases hentries : m.entries with
  | nil =>
    have listed := mem_entries_iff.2 hb
    rw [hentries] at listed
    cases listed
  | cons e rest =>
    refine ⟨e.1, e.2, rest, rfl, mem_entries_iff.1 (hentries ▸ List.mem_cons_self ..), ?_⟩
    intro k hk
    obtain ⟨a, ha⟩ := mem_iff_get?.1 hk
    have listed := mem_entries_iff.2 ha
    have ascends := m.ascending
    rw [hentries] at listed ascends
    rcases List.mem_cons.1 listed with rfl | later
    · exact .inl rfl
    · exact .inr ((List.pairwise_cons.1 ascends).1 _ later)

theorem keys_congr (h : ∀ key, key ∈ m ↔ key ∈ n) : m.keys = n.keys := by
  have ascends : ∀ m : DigestMap α, m.keys.Pairwise (· < ·) := by
    intro m
    rw [keys, List.pairwise_map]
    exact m.ascending
  refine Digest.eq_of_ascending (ascends m) (ascends n) ?_
  intro key
  rw [mem_keys, mem_keys, h]

end DigestMap

end Lineage
