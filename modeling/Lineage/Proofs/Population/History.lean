import Lineage.Proofs.Population.BirthCheck

/-!
# Histories of populations

A population is founded by two genesis accounts and goes on by calls that may admit an account. One
kind of call checks a birth and admits the account at once. The other admits an account whose birth
has been checked in any earlier state, maybe long ago. Since approvals that have been in order once
stay so, both come to the same: nobody is admitted whose approvals are not in order at that time.
What this keeps holds in every state.
-/
namespace Lineage.Population

variable {g : GenesisPair} {law : Law.Parameters} {past : List Population} {p p' q : Population}
  {a : Account} {b : CheckedBirth} {id d : Digest}

/-- The population after a call, which leaves it as it was if it refuses. -/
def after (p : Population) : Except PopulationError (Population × Digest) → Population
  | .ok (p', _) => p'
  | .error _ => p

/-- The states that a population has gone through, the newest first, and its present state. -/
inductive History (g : GenesisPair) (law : Law.Parameters) :
    List Population → Population → Prop where
  | found {p : Population} (h : ofGenesis g law = .ok p) : History g law [] p
  | add {past : List Population} {p : Population} (h : History g law past p) (a : Account) :
      History g law (p :: past) (p.after (p.add a))
  | insert {past : List Population} {p q : Population} {a : Account} {b : CheckedBirth}
      (h : History g law past p) (earlier : q ∈ p :: past) (checked : q.verifyBirth a = .ok b) :
      History g law (p :: past) (p.after (p.insert b))

/-- What one call makes of a population. -/
inductive Step (p : Population) : Population → Prop where
  | stay : Step p p
  | birth {b : CheckedBirth} {first second : Approval} {x y : Account} {p' : Population}
      (approved : Approved p b.account first second x y)
      (parents : b.parents = (first.parent, second.parent)) (s : Admission p b p') : Step p p'

/-- A birth may have been checked before, as long as nothing has been lost since. -/
theorem step_insert (grows : q.GrowsTo p) (checked : q.verifyBirth a = .ok b) :
    Step p (p.after (p.insert b)) := by
  obtain ⟨rfl, first, second, x, y, approved, parents⟩ := verifyBirth_eq_ok_iff_approved.1 checked
  cases h : p.insert b with
  | error e => exact .stay
  | ok r => exact .birth (approved.mono grows) parents (insert_eq_ok_iff.1 h).2

theorem step_add (p : Population) (a : Account) : Step p (p.after (p.add a)) := by
  rw [add]
  split
  · exact .stay
  · split
    · exact .stay
    · next b checked => exact step_insert (.refl p) checked

theorem Step.grows (s : Step p p') : p.GrowsTo p' := by
  cases s with
  | stay => exact .refl p
  | birth _ _ s => exact s.grows

/-- What all earlier states have grown to grows on with a step. -/
theorem Step.grows_all (s : Step p p') (h : ∀ q ∈ p :: past, q.GrowsTo p) :
    ∀ q ∈ p' :: p :: past, q.GrowsTo p' := by
  intro q hq
  rcases List.mem_cons.1 hq with rfl | hq
  · exact .refl q
  · exact (h q hq).trans s.grows

namespace History

theorem grows (h : History g law past p) : ∀ q ∈ p :: past, q.GrowsTo p := by
  induction h with
  | found h =>
    intro q hq
    rw [List.mem_singleton.1 hq]
    exact .refl _
  | add _ a ih => exact (step_add _ a).grows_all ih
  | insert _ earlier checked ih => exact (step_insert (ih _ earlier) checked).grows_all ih

/-- What holds of the genesis accounts alone and is kept by every step holds in every state. -/
theorem induction {motive : Population → Prop} (found : ∀ p, Founding g law p → motive p)
    (step : ∀ p p', Step p p' → motive p → motive p') (h : History g law past p) : motive p := by
  induction h with
  | found h => exact found _ (founding_of_ofGenesis h)
  | add _ a ih => exact step _ _ (step_add _ a) ih
  | insert h earlier checked ih => exact step _ _ (step_insert (h.grows _ earlier) checked) ih

end History

/-- Whether an id is that of a genesis account. -/
def IsGenesis (p : Population) (id : Digest) : Prop := id = p.genesis.1 ∨ id = p.genesis.2

/-- Two distinct genesis accounts are all of them. -/
theorem IsGenesis.eq_or_eq {e root : Digest} (hroot : p.IsGenesis root) (hd : p.IsGenesis d)
    (he : p.IsGenesis e) (ne : d ≠ e) : root = d ∨ root = e := by
  rcases hd with rfl | rfl
  · rcases he with rfl | rfl
    · exact absurd rfl ne
    · exact hroot
  · rcases he with rfl | rfl
    · exact hroot.symm
    · exact absurd rfl ne

/-- The genesis accounts are there, everybody else has approvals that are in order, and the graph
has an edge for each parent. -/
structure Pedigree (g : GenesisPair) (p : Population) : Prop where
  genesis_eq : p.genesis = g.ids
  ids_ne : g.first.id ≠ g.second.id
  first_account : p.account? g.first.id = some g.first
  second_account : p.account? g.second.id = some g.second
  parents : ∀ v ∈ p.residents.newestFirst, v.parents = .ofList v.value.account.parentList
  approved : ∀ id a, p.account? id = some a → ¬ p.IsGenesis id →
    ∃ first second x y, Approved p a first second x y

/-- At first there is nobody but the genesis accounts. -/
theorem Founding.isGenesis (h : Founding g law p) (ha : p.account? id = some a) :
    p.IsGenesis id := by
  obtain ⟨v, hv, rfl, _⟩ := account?_eq_some_iff.1 ha
  rw [IsGenesis, h.genesis_eq]
  rw [h.residents] at hv
  rcases List.mem_pair.1 hv with rfl | rfl
  · exact .inr rfl
  · exact .inl rfl

theorem Founding.pedigree (h : Founding g law p) : Pedigree g p where
  genesis_eq := h.genesis_eq
  ids_ne := h.ids_ne
  first_account := by
    rw [account?_eq_some_iff, h.residents]
    exact ⟨_, List.mem_cons_of_mem _ (List.mem_cons_self ..), rfl, rfl⟩
  second_account := by
    rw [account?_eq_some_iff, h.residents]
    exact ⟨_, List.mem_cons_self .., rfl, rfl⟩
  parents := by
    intro v hv
    rw [h.residents] at hv
    rcases List.mem_pair.1 hv with rfl | rfl
    · rw [Account.parentList, (Account.unborn_iff.1 g.unborn_second).1]
      rfl
    · rw [Account.parentList, (Account.unborn_iff.1 g.unborn_first).1]
      rfl
  approved := fun _ _ ha hout => absurd (h.isGenesis ha) hout

theorem Step.pedigree (s : Step p p') (h : Pedigree g p) : Pedigree g p' := by
  have grows := s.grows
  cases s with
  | stay => exact h
  | @birth b first second x y _ approved hparents s =>
    refine ⟨grows.genesis_eq.trans h.genesis_eq, h.ids_ne, grows.account?_mono h.first_account,
      grows.account?_mono h.second_account, ?_, ?_⟩
    · intro v hv
      rw [Dag.newestFirst_insert s.residents] at hv
      rcases List.mem_cons.1 hv with rfl | hv
      · rw [Account.parentList, approved.parentIds, hparents]
        rfl
      · exact h.parents v hv
    · intro id a ha hout
      rw [s.account?] at ha
      split at ha
      · cases ha
        exact ⟨first, second, x, y, approved.mono grows⟩
      · rw [IsGenesis, grows.genesis_eq] at hout
        obtain ⟨first, second, x, y, approved⟩ := h.approved id a ha hout
        exact ⟨first, second, x, y, approved.mono grows⟩

theorem History.pedigree (h : History g law past p) : Pedigree g p :=
  h.induction (fun _ h => h.pedigree) (fun _ _ s => s.pedigree)

namespace Pedigree

variable {v : Vertex Resident}

theorem parents_eq_none_iff (h : Pedigree g p) (ha : p.account? id = some a) :
    a.parents = none ↔ p.IsGenesis id := by
  constructor
  · intro hnone
    by_contra hout
    obtain ⟨_, _, _, _, approved⟩ := h.approved id a ha hout
    rw [approved.parents] at hnone
    cases hnone
  · rw [IsGenesis, h.genesis_eq]
    rintro (rfl | rfl)
    · rw [show g.ids.1 = g.first.id from rfl, h.first_account] at ha
      cases ha
      exact Option.map_eq_none_iff.1 (Account.unborn_iff.1 g.unborn_first).1
    · rw [show g.ids.2 = g.second.id from rfl, h.second_account] at ha
      cases ha
      exact Option.map_eq_none_iff.1 (Account.unborn_iff.1 g.unborn_second).1

/-- The edges from an account that was born lead to those who have approved it. -/
theorem exists_approved (h : Pedigree g p) (hv : v ∈ p.residents.newestFirst)
    (hout : ¬ p.IsGenesis v.id) : ∃ first second x y,
      Approved p v.value.account first second x y ∧
      ∀ d, d ∈ v.parents ↔ d = first.parent ∨ d = second.parent := by
  have ha : p.account? v.id = some v.value.account := account?_eq_some_iff.2 ⟨v, hv, rfl, rfl⟩
  obtain ⟨first, second, x, y, approved⟩ := h.approved v.id v.value.account ha hout
  refine ⟨first, second, x, y, approved, ?_⟩
  intro d
  rw [h.parents v hv, DigestSet.mem_ofList, Account.parentList, approved.parentIds]
  exact List.mem_pair

/-- Both genesis accounts are ancestors of everybody else, by induction down from them. -/
theorem isAncestor_of_isGenesis (h : Pedigree g p) {root : Digest} (hroot : p.IsGenesis root) :
    ∀ id ∈ p, ¬ p.IsGenesis id → p.isAncestor root id = true := by
  simp only [isAncestor, Dag.isAncestor_iff]
  refine p.residents.grown.induction fun v hv ih => ?_
  intro hout
  obtain ⟨first, second, x, y, approved, hparents⟩ := h.exists_approved hv hout
  have hfirst := (hparents first.parent).2 (.inl rfl)
  have hsecond := (hparents second.parent).2 (.inr rfl)
  rw [Dag.mem_ancestors_of_parent_iff hv]
  by_cases one : p.IsGenesis first.parent
  · by_cases two : p.IsGenesis second.parent
    · have hor := hroot.eq_or_eq one two approved.ne
      exact ⟨root, (hparents root).2 hor, .inl rfl⟩
    · exact ⟨second.parent, hsecond, .inr (ih _ hsecond two)⟩
  · exact ⟨first.parent, hfirst, .inr (ih _ hfirst one)⟩

theorem related_of_isGenesis (h : Pedigree g p) {root : Digest} (hroot : p.IsGenesis root)
    (hid : id ∈ p) (hout : ¬ p.IsGenesis id) : p.residents.related root id = true := by
  rw [Dag.related, Bool.or_eq_true]
  exact .inl (h.isAncestor_of_isGenesis hroot id hid hout)

/-- A genesis account is related to everybody but the other one, so it has children with that one
alone. -/
theorem isGenesis_iff (h : Pedigree g p) {first second : Approval} {x y : Account}
    (approved : Approved p a first second x y) :
    p.IsGenesis first.parent ↔ p.IsGenesis second.parent := by
  have unrelated := approved.unrelated
  constructor
  · intro one
    by_contra two
    rw [h.related_of_isGenesis one approved.second_mem two] at unrelated
    cases unrelated
  · intro two
    by_contra one
    rw [Dag.related_comm, h.related_of_isGenesis two approved.first_mem one] at unrelated
    cases unrelated

end Pedigree

end Lineage.Population
