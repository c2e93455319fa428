/-!
# Results that are described case by case

A check answers with a value or with an error, and is described by saying where it answers what. If
the cases that are described cover all inputs and each is borne out by the check, then the
description is exact: where the check answers so, the case applies.
-/
namespace Lineage

variable {ε α : Type} {result : Except ε α} {fault : ε → Prop}

/-- If some answers and some errors cover all cases, and each is the result where it applies, then
they say exactly what the result is. -/
theorem eq_iff_of_cover {answer : α → Prop}
    (cover : (∃ a, answer a) ∨ ∃ e, fault e) (ok : ∀ a, answer a → result = .ok a)
    (error : ∀ e, fault e → result = .error e) :
    (∀ a, result = .ok a ↔ answer a) ∧ ∀ e, result = .error e ↔ fault e := by
  rcases cover with ⟨a, ha⟩ | ⟨e, he⟩
  · rw [ok a ha]
    constructor
    · intro b
      constructor
      · rintro ⟨⟩
        exact ha
      · intro hb
        rw [← ok a ha, ok b hb]
    · intro e
      constructor
      · nofun
      · intro he
        rw [← ok a ha, error e he]
  · rw [error e he]
    constructor
    · intro a
      constructor
      · nofun
      · intro ha
        rw [← error e he, ok a ha]
    · intro e'
      constructor
      · rintro ⟨⟩
        exact he
      · intro he'
        rw [← error e he, error e' he']

/-- The same where it is only said when there is an answer, and not which one. -/
theorem exists_iff_of_cover {good : Prop} (cover : good ∨ ∃ e, fault e)
    (ok : good → ∃ a, result = .ok a) (error : ∀ e, fault e → result = .error e) :
    ((∃ a, result = .ok a) ↔ good) ∧ ∀ e, result = .error e ↔ fault e := by
  have answers : (∃ a, good ∧ result = .ok a) ∨ ∃ e, fault e := by
    refine cover.imp_left fun h => ?_
    obtain ⟨a, ha⟩ := ok h
    exact ⟨a, h, ha⟩
  obtain ⟨oks, errors⟩ := eq_iff_of_cover answers (fun _ h => h.2) error
  refine ⟨⟨?_, ok⟩, errors⟩
  rintro ⟨a, ha⟩
  exact ((oks a).1 ha).1

end Lineage
