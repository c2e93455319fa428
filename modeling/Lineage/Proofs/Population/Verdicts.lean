import Lineage.Proofs.Population.Ancestry

/-!
# Verdicts on births are final

What the check of a birth looks at is the accounts of the parents, their kinship and signatures.
Nothing of this changes when a population grows, so the check says the same ever after as soon as
both parents are known. A birth that has passed may be admitted at any later time, and this comes
to the same as if it were checked again.
-/
namespace Lineage.Population

variable {g : GenesisPair} {law : Law.Parameters} {past : List Population} {p p' q : Population}
  {a : Account} {b : CheckedBirth} {id : Digest}

/-- Unless it lacks a parent, a birth is judged by a later population as by an earlier one. -/
theorem GrowsTo.checkBirth_eq (grows : p.GrowsTo p')
    (known : ∀ d, p.checkBirth a ≠ .error (.unknownParent d)) :
    p'.checkBirth a = p.checkBirth a := by
  cases parents : a.parents with
  | none => simp [checkBirth, parents]
  | some approvals =>
    obtain ⟨first, second⟩ := approvals
    cases hx : p.account? first.parent with
    | none => exact absurd (by simp [checkBirth, parents, hx]) (known first.parent)
    | some x =>
      cases hy : p.account? second.parent with
      | none => exact absurd (by simp [checkBirth, parents, hx, hy]) (known second.parent)
      | some y =>
        have related : p'.residents.related first.parent second.parent =
            p.residents.related first.parent second.parent := by
          have up := grows.isAncestor_eq (mem_iff_account?.2 ⟨x, hx⟩) second.parent
          have down := grows.isAncestor_eq (mem_iff_account?.2 ⟨y, hy⟩) first.parent
          simp only [isAncestor] at up down
          simp only [Dag.related, up, down]
        simp only [checkBirth, parents, hx, hy, grows.account?_mono hx, grows.account?_mono hy,
          related]

/-- A birth that has passed once passes later, and to the same effect. -/
theorem GrowsTo.verifyBirth_eq (grows : p.GrowsTo p') (checked : p.verifyBirth a = .ok b) :
    p'.verifyBirth a = .ok b := by
  rw [verifyBirth_eq_ok_iff] at checked ⊢
  obtain ⟨passes, rest⟩ := checked
  refine ⟨?_, rest⟩
  rw [grows.checkBirth_eq (by simp [passes]), passes]

/-- Admission after a check that passes is admission without another check. -/
theorem add_eq_insert (checked : p.verifyBirth a = .ok b) : p.add a = p.insert b := by
  obtain ⟨-, -, rfl⟩ := verifyBirth_eq_ok_iff.1 checked
  by_cases known : b.account.id ∈ p
  · simp only [add, if_pos known, insert_of_mem known]
  · simp only [add, if_neg known, checked]

/-- Every earlier state has a history of its own. -/
theorem History.of_mem (h : History g law past p) (earlier : q ∈ p :: past) :
    ∃ before, History g law before q := by
  induction h with
  | found h =>
    rw [List.mem_singleton.1 earlier]
    exact ⟨[], .found h⟩
  | add h a ih =>
    rcases List.mem_cons.1 earlier with rfl | earlier
    · exact ⟨_, h.add a⟩
    · exact ih earlier
  | insert h before checked ih =>
    rcases List.mem_cons.1 earlier with rfl | earlier
    · exact ⟨_, h.insert before checked⟩
    · exact ih earlier

/-- An account that a step brings in bears its own name, was not there before, and was born with a
check that passed. -/
theorem Step.verified (s : Step p p') (ha : p'.account? id = some a) :
    p.account? id = some a ∨ a.id = id ∧ id ∉ p ∧ ∃ b, p.verifyBirth a = .ok b := by
  cases s with
  | stay => exact .inl ha
  | @birth b first second x y _ approved parents s =>
    rw [s.account?] at ha
    split at ha
    · next hid =>
      cases ha
      have checked : p.verifyBirth b.account = .ok b :=
        verifyBirth_eq_ok_iff_approved.2 ⟨rfl, first, second, x, y, approved, parents⟩
      exact .inr ⟨hid.symm, hid ▸ s.fresh, b, checked⟩
    · exact .inl ha

/-- Everybody but the genesis accounts was missing from some earlier state, in which the birth
passed. -/
theorem History.exists_verified (h : History g law past p) (ha : p.account? id = some a)
    (hout : ¬ p.IsGenesis id) :
    a.id = id ∧ ∃ q ∈ past, id ∉ q ∧ ∃ b, q.verifyBirth a = .ok b := by
  have last : ∀ {p p' : Population} {past : List Population}, Step p p' →
      (p.account? id = some a → ¬ p.IsGenesis id →
        a.id = id ∧ ∃ q ∈ past, id ∉ q ∧ ∃ b, q.verifyBirth a = .ok b) →
      p'.account? id = some a → ¬ p'.IsGenesis id →
        a.id = id ∧ ∃ q ∈ p :: past, id ∉ q ∧ ∃ b, q.verifyBirth a = .ok b := by
    intro p p' past s ih ha hout
    rw [IsGenesis, s.grows.genesis_eq] at hout
    rcases s.verified ha with ha | ⟨named, fresh, checked⟩
    · obtain ⟨named, q, hq, found⟩ := ih ha hout
      exact ⟨named, q, List.mem_cons_of_mem _ hq, found⟩
    · exact ⟨named, p, List.mem_cons_self .., fresh, checked⟩
  induction h with
  | found h => exact absurd ((founding_of_ofGenesis h).isGenesis ha) hout
  | add _ b ih => exact last (step_add _ b) ih ha hout
  | insert h earlier checked ih =>
    exact last (step_insert (h.grows _ earlier) checked) ih ha hout

/-- A birth that has been judged with both parents known is judged in the same way ever after. If it
has passed, the account can be admitted at any later time with the same effect. -/
theorem verdict_final (h : History g law past p) (earlier : q ∈ p :: past) (a : Account) :
    ((∀ d, q.checkBirth a ≠ .error (.unknownParent d)) → p.checkBirth a = q.checkBirth a) ∧
    ∀ b, q.verifyBirth a = .ok b →
      p.insert b = p.add a ∧
      (a.id ∈ p → p.insert b = .error (.alreadyExists a.id) ∧ p.after (p.insert b) = p) ∧
      (a.id ∉ p → ∃ p', p.insert b = .ok (p', a.id) ∧ Admission p b p') := by
  have grows : q.GrowsTo p := h.grows q earlier
  refine ⟨grows.checkBirth_eq, ?_⟩
  intro b checked
  have again : p.verifyBirth a = .ok b := grows.verifyBirth_eq checked
  obtain ⟨passes, parents, rfl⟩ := verifyBirth_eq_ok_iff.1 again
  refine ⟨(add_eq_insert again).symm, ?_, ?_⟩
  · intro known
    rw [insert_of_mem known]
    exact ⟨rfl, rfl⟩
  · intro fresh
    obtain ⟨first, second⟩ := parents_mem_of_checkBirth passes parents
    obtain ⟨p', hp⟩ := exists_insert fresh first second
    exact ⟨p', hp, (insert_eq_ok_iff.1 hp).2⟩

/-- The check that Abel's birth has passed lets him in at that time, and not again later. -/
theorem verdict_final_abel : ∃ g law past p q a b, History g law past p ∧ q ∈ past ∧
    q.verifyBirth a = .ok b ∧ p.checkBirth a = q.checkBirth a ∧
    (∃ q', q.insert b = .ok (q', a.id) ∧ q.add a = .ok (q', a.id)) ∧
    p.insert b = .error (.alreadyExists a.id) := by
  obtain ⟨g, law, past, p, a, history, ha, hout⟩ := Sample.exists_descendant
  obtain ⟨named, q, hq, missing, b, checked⟩ := history.exists_verified ha hout
  have earlier : q ∈ p :: past := List.mem_cons_of_mem p hq
  obtain ⟨before, start⟩ := history.of_mem earlier
  have once := (verdict_final start (List.mem_cons_self ..) a).2 b checked
  have later := verdict_final history earlier a
  have passes : q.checkBirth a = .ok () := (verifyBirth_eq_ok_iff.1 checked).1
  obtain ⟨q', admitted, -⟩ := once.2.2 (named ▸ missing)
  refine ⟨g, law, past, p, q, a, b, history, hq, checked, later.1 (by simp [passes]), ?_, ?_⟩
  · exact ⟨q', admitted, once.1 ▸ admitted⟩
  · exact ((later.2 b checked).2.1 (named ▸ mem_iff_account?.2 ⟨a, ha⟩)).1

end Lineage.Population
