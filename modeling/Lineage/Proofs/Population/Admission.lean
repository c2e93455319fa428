import Lineage.Population
import Lineage.Proofs.Dag.Insertion
import Lineage.Proofs.Dag.Kinship

/-!
# Admission of accounts

A birth that has been checked names two accounts of the population, so nothing but an account of
the same name stands against its admission. Admission adds one vertex below both parents and
leaves the law, the genesis accounts and everything known of other accounts as they were: their
content, their lifetime and their ancestors.
-/
namespace Lineage.Population

variable {p p' : Population} {a : Account} {id : Digest}

theorem mem_iff_account? : id ∈ p ↔ ∃ a, p.account? id = some a := by
  rw [show id ∈ p ↔ id ∈ p.residents from Iff.rfl, Dag.mem_iff_value?]
  simp only [account?, Option.map_eq_some_iff]
  constructor
  · rintro ⟨r, hr⟩
    exact ⟨r.account, r, hr, rfl⟩
  · rintro ⟨_, r, hr, _⟩
    exact ⟨r, hr⟩

theorem mem_iff_lifecycle? : id ∈ p ↔ ∃ n, p.lifecycle? id = some n := by
  rw [show id ∈ p ↔ id ∈ p.residents from Iff.rfl, Dag.mem_iff_value?]
  simp only [lifecycle?, Option.map_eq_some_iff]
  constructor
  · rintro ⟨r, hr⟩
    exact ⟨r.lifecycle, r, hr, rfl⟩
  · rintro ⟨_, r, hr, _⟩
    exact ⟨r, hr⟩

theorem account?_eq_none : p.account? id = none ↔ id ∉ p := by
  rw [mem_iff_account?, Option.eq_none_iff_forall_ne_some, not_exists]

theorem account?_eq_some_iff :
    p.account? id = some a ↔ ∃ v ∈ p.residents.newestFirst, v.id = id ∧ v.value.account = a := by
  simp only [account?, Option.map_eq_some_iff, Dag.value?_eq_some_iff]
  constructor
  · rintro ⟨r, ⟨v, hv, hid, rfl⟩, ha⟩
    exact ⟨v, hv, hid, ha⟩
  · rintro ⟨v, hv, hid, ha⟩
    exact ⟨v.value, ⟨v, hv, hid, rfl⟩, ha⟩

/-- Whether an account names two accounts as its parents. -/
def HasParents (p : Population) (id : Digest) (parents : Digest × Digest) : Prop :=
  ∃ a, p.account? id = some a ∧ a.parentIds = some parents

theorem HasParents.unique {q r : Digest × Digest} (h : p.HasParents id q)
    (h' : p.HasParents id r) : q = r := by
  obtain ⟨a, ha, hq⟩ := h
  obtain ⟨b, hb, hr⟩ := h'
  rw [ha, Option.some.injEq] at hb
  rw [← hb, hq, Option.some.injEq] at hr
  exact hr

/-- The two genesis accounts come first, without parents, and the law has been validated. -/
structure Founding (g : GenesisPair) (law : Law.Parameters) (p : Population) : Prop where
  valid : law.validate = .ok ()
  law_eq : p.law = law
  genesis_eq : p.genesis = g.ids
  ids_ne : g.first.id ≠ g.second.id
  residents : p.residents.newestFirst =
    [⟨g.second.id, ⟨g.second, law.genesisLifecycle⟩, .ofList []⟩,
      ⟨g.first.id, ⟨g.first, law.genesisLifecycle⟩, .ofList []⟩]

theorem enter_eq_ok_iff {residents residents' : Dag Resident} {lifecycle : Steps}
    {parents : List Digest} : enter residents a lifecycle parents = .ok residents' ↔
      residents.insert ⟨a.id, ⟨a, lifecycle⟩, .ofList parents⟩ = .ok residents' := by
  unfold enter
  split
  · next h => rw [h]; simp
  · next h => rw [h]; simp

theorem founding_of_ofGenesis {g : GenesisPair} {law : Law.Parameters}
    (h : ofGenesis g law = .ok p) : Founding g law p := by
  unfold ofGenesis at h
  split at h
  · cases h
  · next valid =>
    simp only [bind, Except.bind, pure, Except.pure] at h
    split at h
    · cases h
    · next one first =>
      split at h
      · cases h
      · next two second =>
        cases h
        rw [enter_eq_ok_iff] at first second
        have hone := Dag.newestFirst_insert first
        have hfresh := Dag.fresh_of_insert second
        refine ⟨valid, rfl, rfl, ?_, ?_⟩
        · rintro hid
          apply hfresh
          rw [Dag.mem_def, hone]
          simp [hid]
        · show two.newestFirst = _
          rw [Dag.newestFirst_insert second, hone]
          rfl

/-- What the admission of a checked birth makes of a population. -/
structure Admission (p : Population) (b : CheckedBirth) (p' : Population) : Prop where
  residents : p.residents.insert ⟨b.account.id, ⟨b.account, p.childLifecycle b.parents⟩,
    .ofList [b.parents.1, b.parents.2]⟩ = .ok p'.residents
  genesis_eq : p'.genesis = p.genesis
  law_eq : p'.law = p.law

theorem insert_eq_ok_iff {b : CheckedBirth} :
    p.insert b = .ok (p', id) ↔ id = b.account.id ∧ Admission p b p' := by
  unfold insert
  simp only [bind, Except.bind, pure, Except.pure]
  constructor
  · intro h
    split at h
    · cases h
    · split at h
      · cases h
      · next residents hr =>
        cases h
        exact ⟨rfl, enter_eq_ok_iff.1 hr, rfl, rfl⟩
  · rintro ⟨rfl, hr, hg, hl⟩
    rw [if_neg (show ¬ b.account.id ∈ p from Dag.fresh_of_insert hr), enter_eq_ok_iff.2 hr]
    obtain ⟨residents, genesis, law⟩ := p'
    simp_all

theorem insert_of_mem {b : CheckedBirth} (h : b.account.id ∈ p) :
    p.insert b = .error (.alreadyExists b.account.id) := by
  rw [insert, if_pos h]

theorem exists_insert {b : CheckedBirth} (fresh : b.account.id ∉ p) (first : b.parents.1 ∈ p)
    (second : b.parents.2 ∈ p) : ∃ p', p.insert b = .ok (p', b.account.id) := by
  obtain ⟨residents, hr⟩ := Dag.exists_insert (g := p.residents)
    (v := ⟨b.account.id, ⟨b.account, p.childLifecycle b.parents⟩,
      .ofList [b.parents.1, b.parents.2]⟩) fresh (by
    intro d hd
    rcases List.mem_pair.1 (DigestSet.mem_ofList.1 hd) with rfl | rfl
    · exact first
    · exact second)
  exact ⟨{ p with residents }, insert_eq_ok_iff.2 ⟨rfl, hr, rfl, rfl⟩⟩

theorem verifyBirth_eq_ok_iff {b : CheckedBirth} : p.verifyBirth a = .ok b ↔
    p.checkBirth a = .ok () ∧ a.parentIds = some b.parents ∧ b.account = a := by
  unfold verifyBirth
  simp only [bind, Except.bind, pure, Except.pure]
  cases p.checkBirth a with
  | error e => simp
  | ok _ =>
    cases a.parentIds with
    | none => simp
    | some parents =>
      obtain ⟨account, named⟩ := b
      simp [eq_comm, and_comm]

theorem verifyBirth_of_error {e : BirthError} (h : p.checkBirth a = .error e) :
    p.verifyBirth a = .error e := by
  rw [verifyBirth, h]
  rfl

/-- Both parents of a birth that passes the check are accounts of the population. -/
theorem parents_mem_of_checkBirth (h : p.checkBirth a = .ok ()) {parents : Digest × Digest}
    (hp : a.parentIds = some parents) : parents.1 ∈ p ∧ parents.2 ∈ p := by
  unfold checkBirth at h
  rw [Account.parentIds] at hp
  cases ha : a.parents with
  | none => rw [ha] at hp; cases hp
  | some approvals =>
    obtain ⟨first, second⟩ := approvals
    rw [ha] at hp h
    cases hp
    simp only at h
    cases h₁ : p.account? first.parent with
    | none => rw [h₁] at h; cases h
    | some x =>
      cases h₂ : p.account? second.parent with
      | none => rw [h₁, h₂] at h; cases h
      | some y => exact ⟨mem_iff_account?.2 ⟨x, h₁⟩, mem_iff_account?.2 ⟨y, h₂⟩⟩

namespace Admission

variable {b : CheckedBirth}

theorem mem_iff (h : Admission p b p') : id ∈ p' ↔ id = b.account.id ∨ id ∈ p :=
  Dag.mem_insert h.residents

theorem fresh (h : Admission p b p') : b.account.id ∉ p := Dag.fresh_of_insert h.residents

theorem account? (h : Admission p b p') (id : Digest) :
    p'.account? id = if id = b.account.id then some b.account else p.account? id := by
  rw [Population.account?, Dag.value?_insert h.residents]
  by_cases hid : id = b.account.id <;> simp [hid, Population.account?]

theorem lifecycle?_of_mem (h : Admission p b p') (hid : id ∈ p) :
    p'.lifecycle? id = p.lifecycle? id := by
  rw [Population.lifecycle?, Dag.value?_insert_of_mem h.residents hid, Population.lifecycle?]

theorem account?_of_mem (h : Admission p b p') (hid : id ∈ p) :
    p'.account? id = p.account? id := by
  rw [Population.account?, Dag.value?_insert_of_mem h.residents hid, Population.account?]

theorem hasParents (h : Admission p b p') (hb : b.account.parentIds = some b.parents)
    {parents : Digest × Digest} : p'.HasParents id parents ↔
      (id = b.account.id ∧ parents = b.parents) ∨ p.HasParents id parents := by
  unfold HasParents
  rw [h.account?]
  by_cases hid : id = b.account.id
  · have hout : p.account? b.account.id = none := account?_eq_none.2 h.fresh
    simp [hid, hout, hb, eq_comm]
  · simp [hid]

end Admission

/-- What becomes of a population: it is the oldest part of a later one. -/
structure GrowsTo (p p' : Population) : Prop where
  residents : p.residents.GrowsTo p'.residents
  genesis_eq : p'.genesis = p.genesis
  law_eq : p'.law = p.law

namespace GrowsTo

theorem refl (p : Population) : p.GrowsTo p := ⟨.refl _, rfl, rfl⟩

theorem trans {p'' : Population} (first : p.GrowsTo p') (later : p'.GrowsTo p'') :
    p.GrowsTo p'' where
  residents := first.residents.trans later.residents
  genesis_eq := later.genesis_eq.trans first.genesis_eq
  law_eq := later.law_eq.trans first.law_eq

theorem account?_mono (grows : p.GrowsTo p') {a : Account} (ha : p.account? id = some a) :
    p'.account? id = some a := by
  obtain ⟨r, hr, rfl⟩ := Option.map_eq_some_iff.1 ha
  exact Option.map_eq_some_iff.2 ⟨r, grows.residents.value?_mono hr, rfl⟩

theorem lifecycle?_mono (grows : p.GrowsTo p') {n : Steps} (hn : p.lifecycle? id = some n) :
    p'.lifecycle? id = some n := by
  obtain ⟨r, hr, rfl⟩ := Option.map_eq_some_iff.1 hn
  exact Option.map_eq_some_iff.2 ⟨r, grows.residents.value?_mono hr, rfl⟩

theorem isAncestor_eq (grows : p.GrowsTo p') (hid : id ∈ p) (ancestor : Digest) :
    p'.isAncestor ancestor id = p.isAncestor ancestor id :=
  grows.residents.isAncestor_eq hid

end GrowsTo

theorem Admission.grows {b : CheckedBirth} (s : Admission p b p') : p.GrowsTo p' :=
  ⟨.of_insert s.residents, s.genesis_eq, s.law_eq⟩

end Lineage.Population
