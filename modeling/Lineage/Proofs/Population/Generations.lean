import Lineage.Proofs.Law.Windows
import Lineage.Proofs.Population.Ancestry
import Lineage.Proofs.Universe.Creation
import Lineage.Proofs.Universe.Growth
import Mathlib.Order.Bounds.Basic
import Mathlib.Order.MinMax
import Mathlib.Algebra.Group.Nat.Defs

/-!
# Lifetimes by generation

An account lives half as long as the longer lived of its parents, but not less than the minimum. So
its lifetime depends on nothing but its generation, which is the length of the shortest line of
descent from a genesis account. Halving and rounding down one generation at a time comes to the same
as dividing once, and the minimum may as well be taken once in the end.
-/
namespace Lineage

namespace Law.Parameters

variable {law : Parameters}

/-- How long the accounts of a generation live. -/
def lifetimeAt (law : Parameters) (generation : Nat) : Nat :=
  max law.minLifetime.toNat (law.genesisLifecycle.toNat / 2 ^ generation)

theorem minLifetime_le_lifetimeAt (law : Parameters) (generation : Nat) :
    law.minLifetime.toNat ≤ law.lifetimeAt generation :=
  Nat.le_max_left ..

/-- The genesis accounts live no less than the minimum, even if sixteen times the minimum does not
fit. -/
theorem minLifetime_le_genesisLifecycle (valid : law.validate = .ok ()) :
    law.minLifetime.toNat ≤ law.genesisLifecycle.toNat := by
  have fits := law.minLifetime.toNat_le_maximum
  unfold validate at valid
  rw [genesisLifecycle]
  split at valid
  · cases valid
  · split at valid
    · next g set =>
      split at valid
      · cases valid
      · next above =>
        rw [set, Option.getD_some]
        exact UInt64.le_iff_toNat_le.1 (UInt64.not_lt.1 above)
    · next unset =>
      rw [unset, Option.getD_none, Steps.times, Steps.toNat_clamp]
      omega

theorem lifetimeAt_zero (valid : law.validate = .ok ()) :
    law.lifetimeAt 0 = law.genesisLifecycle.toNat := by
  rw [lifetimeAt, Nat.pow_zero, Nat.div_one]
  exact Nat.max_eq_right (minLifetime_le_genesisLifecycle valid)

theorem lifetimeAt_antitone (law : Parameters) : Antitone law.lifetimeAt := by
  intro i j hij
  have powers : 2 ^ i ≤ 2 ^ j := Nat.pow_le_pow_right Nat.two_pos hij
  exact max_le_max (Nat.le_refl _) (Nat.div_le_div_left powers (Nat.two_pow_pos i))

/-- The longer lived of two parents is the one of the earlier generation. -/
theorem lifetimeAt_succ (law : Parameters) (i j : Nat) :
    law.lifetimeAt (min i j + 1) =
      max law.minLifetime.toNat (max (law.lifetimeAt i) (law.lifetimeAt j) / 2) := by
  rw [← law.lifetimeAt_antitone.map_min, lifetimeAt, lifetimeAt, Nat.pow_succ,
    ← Nat.div_div_eq_div_mul]
  omega

theorem lifetimeAt_of_four_le (unset : law.genesisLifetime = none) {generation : Nat}
    (late : 4 ≤ generation) : law.lifetimeAt generation = law.minLifetime.toNat := by
  have fourth : law.lifetimeAt 4 = law.minLifetime.toNat := by
    rw [lifetimeAt, genesisLifecycle, unset, Option.getD_none, Steps.times, Steps.toNat_clamp]
    omega
  exact Nat.le_antisymm (fourth ▸ law.lifetimeAt_antitone late)
    (law.minLifetime_le_lifetimeAt generation)

end Law.Parameters

namespace Population

variable {g : GenesisPair} {law : Law.Parameters} {past : List Population} {p p' q : Population}
  {a : Account} {b : CheckedBirth} {id parent : Digest} {parents : Digest × Digest}

/-- What a population may become by calls that admit accounts. A birth that is admitted later may
have been checked in any population whatever. -/
inductive Reached (g : GenesisPair) (law : Law.Parameters) : Population → Prop where
  | found {p : Population} (h : ofGenesis g law = .ok p) : Reached g law p
  | add {p : Population} (h : Reached g law p) (a : Account) : Reached g law (p.after (p.add a))
  | insert {p q : Population} {a : Account} {b : CheckedBirth} (h : Reached g law p)
      (checked : q.verifyBirth a = .ok b) : Reached g law (p.after (p.insert b))

theorem History.reached (h : History g law past p) : Reached g law p := by
  induction h with
  | found h => exact .found h
  | add _ a ih => exact .add ih a
  | insert _ _ checked ih => exact .insert ih checked

/-- What is known of an account and of those that it names as its parents: a genesis account names
nobody, and everybody else has a lifetime that follows from theirs. -/
inductive Inherits (p : Population) (v : Vertex Resident) : Prop where
  | genesis (founder : p.IsGenesis v.id) (orphan : v.value.account.parentIds = none)
      (lifecycle : v.value.lifecycle = p.law.genesisLifecycle) : Inherits p v
  | child {parents : Digest × Digest} (later : ¬ p.IsGenesis v.id)
      (named : v.value.account.parentIds = some parents)
      (lifecycle : v.value.lifecycle = p.childLifecycle parents) : Inherits p v

/-- Lifetimes are inherited, and the edges of the graph are the parents that accounts name. -/
structure Inheritance (law : Law.Parameters) (p : Population) : Prop where
  valid : law.validate = .ok ()
  law_eq : p.law = law
  founders : ∀ id, p.IsGenesis id → id ∈ p
  edges : ∀ v ∈ p.residents.newestFirst, v.parents = .ofList v.value.account.parentList
  inherits : ∀ v ∈ p.residents.newestFirst, p.Inherits v

theorem Founding.inheritance (h : Founding g law p) : Inheritance law p where
  valid := h.valid
  law_eq := h.law_eq
  founders := by
    intro id founder
    rw [IsGenesis, h.genesis_eq] at founder
    show id ∈ p.residents.newestFirst.map (·.id)
    rw [h.residents]
    rcases founder with rfl | rfl
    · exact List.mem_cons_of_mem _ (List.mem_cons_self ..)
    · exact List.mem_cons_self ..
  edges := h.pedigree.parents
  inherits := by
    intro v hv
    have founder : p.IsGenesis v.id := h.isGenesis (account?_eq_some_iff.2 ⟨v, hv, rfl, rfl⟩)
    rw [h.residents] at hv
    rcases List.mem_pair.1 hv with rfl | rfl
    · exact .genesis founder (Account.unborn_iff.1 g.unborn_second).1 (by rw [h.law_eq])
    · exact .genesis founder (Account.unborn_iff.1 g.unborn_first).1 (by rw [h.law_eq])

/-- The parents of an account that is admitted are there, wherever its birth has been checked. -/
theorem Admission.parents_mem (s : Admission p b p') : b.parents.1 ∈ p ∧ b.parents.2 ∈ p := by
  have known := Dag.known_of_insert s.residents
  simp only [DigestSet.mem_ofList] at known
  exact ⟨known _ (List.mem_cons_self ..), known _ (List.mem_cons_of_mem _ (List.mem_cons_self ..))⟩

/-- How long the children of two accounts live is settled when both are there. -/
theorem Admission.childLifecycle_eq (s : Admission p b p') (first : parents.1 ∈ p)
    (second : parents.2 ∈ p) : p'.childLifecycle parents = p.childLifecycle parents := by
  rw [childLifecycle, childLifecycle, s.lifecycle?_of_mem first, s.lifecycle?_of_mem second,
    s.law_eq]

theorem Admission.isGenesis_iff (s : Admission p b p') : p'.IsGenesis id ↔ p.IsGenesis id := by
  rw [IsGenesis, IsGenesis, s.genesis_eq]

theorem Admission.inherits (s : Admission p b p') {v : Vertex Resident} (h : p.Inherits v)
    (known : ∀ q, v.value.account.parentIds = some q → q.1 ∈ p ∧ q.2 ∈ p) : p'.Inherits v := by
  cases h with
  | genesis founder orphan lifecycle =>
    exact .genesis (s.isGenesis_iff.2 founder) orphan (by rw [lifecycle, s.law_eq])
  | child later named lifecycle =>
    obtain ⟨first, second⟩ := known _ named
    exact .child (fun founder => later (s.isGenesis_iff.1 founder)) named
      (lifecycle.trans (s.childLifecycle_eq first second).symm)

theorem Inheritance.mem_parents_iff (h : Inheritance law p) {v : Vertex Resident}
    (hv : v ∈ p.residents.newestFirst) (named : v.value.account.parentIds = some parents) :
    ∀ d, d ∈ v.parents ↔ d = parents.1 ∨ d = parents.2 := by
  intro d
  rw [h.edges v hv, Account.parentList, named, DigestSet.mem_ofList]
  exact List.mem_pair

theorem Inheritance.admission (h : Inheritance law p) (s : Admission p b p')
    (named : b.account.parentIds = some b.parents) : Inheritance law p' := by
  refine ⟨h.valid, s.law_eq.trans h.law_eq, ?_, ?_, ?_⟩
  · intro id founder
    exact s.mem_iff.2 (.inr (h.founders id (s.isGenesis_iff.1 founder)))
  · intro v hv
    rw [Dag.newestFirst_insert s.residents] at hv
    rcases List.mem_cons.1 hv with rfl | hv
    · rw [Account.parentList, named]
      rfl
    · exact h.edges v hv
  · intro v hv
    rw [Dag.newestFirst_insert s.residents] at hv
    rcases List.mem_cons.1 hv with rfl | hv
    · obtain ⟨first, second⟩ := s.parents_mem
      have later : ¬ p'.IsGenesis b.account.id := fun founder =>
        s.fresh (h.founders _ (s.isGenesis_iff.1 founder))
      exact .child later named (s.childLifecycle_eq first second).symm
    · refine s.inherits (h.inherits v hv) fun q names => ?_
      have edge := h.mem_parents_iff hv names
      exact ⟨Dag.mem_of_mem_parents hv ((edge q.1).2 (.inl rfl)),
        Dag.mem_of_mem_parents hv ((edge q.2).2 (.inr rfl))⟩

theorem Inheritance.insert (h : Inheritance law p) (checked : q.verifyBirth a = .ok b) :
    Inheritance law (p.after (p.insert b)) := by
  obtain ⟨_, named, rfl⟩ := verifyBirth_eq_ok_iff.1 checked
  cases hp : p.insert b with
  | error e => exact h
  | ok r => exact h.admission (insert_eq_ok_iff.1 hp).2 named

theorem Inheritance.add (h : Inheritance law p) (a : Account) :
    Inheritance law (p.after (p.add a)) := by
  rw [Population.add]
  split
  · exact h
  · split
    · exact h
    · next b checked => exact h.insert checked

theorem Reached.inheritance (h : Reached g law p) : Inheritance law p := by
  induction h with
  | found h => exact (founding_of_ofGenesis h).inheritance
  | add _ a ih => exact ih.add a
  | insert _ checked ih => exact ih.insert checked

/-- Whether there is a line of descent of the given length from a genesis account. -/
inductive Descends (p : Population) : Nat → Digest → Prop where
  | genesis {id : Digest} (founder : p.IsGenesis id) : Descends p 0 id
  | child {n : Nat} {id parent : Digest} {parents : Digest × Digest}
      (named : p.HasParents id parents) (one : parent = parents.1 ∨ parent = parents.2)
      (line : Descends p n parent) : Descends p (n + 1) id

/-- The generation of an account is the length of its shortest line of descent. -/
def Generation (p : Population) (id : Digest) (generation : Nat) : Prop :=
  IsLeast {n | p.Descends n id} generation

theorem Generation.of_isGenesis (founder : p.IsGenesis id) : p.Generation id 0 :=
  ⟨.genesis founder, fun _ _ => Nat.zero_le _⟩

theorem Generation.eq_zero_iff {d : Nat} (h : p.Generation id d) : d = 0 ↔ p.IsGenesis id := by
  constructor
  · rintro rfl
    cases h.1 with
    | genesis founder => exact founder
  · intro founder
    exact Nat.le_zero.1 (h.2 (.genesis founder))

/-- An account that was born is one generation after the earlier one of its parents. -/
theorem Generation.child {i j : Nat} (later : ¬ p.IsGenesis id) (named : p.HasParents id parents)
    (first : p.Generation parents.1 i) (second : p.Generation parents.2 j) :
    p.Generation id (min i j + 1) := by
  constructor
  · rcases Nat.le_total i j with hij | hji
    · rw [Nat.min_eq_left hij]
      exact .child named (.inl rfl) first.1
    · rw [Nat.min_eq_right hji]
      exact .child named (.inr rfl) second.1
  · intro n hn
    cases hn with
    | genesis founder => exact absurd founder later
    | @child m _ parent _ named' one line =>
      rw [named'.unique named] at one
      rcases one with rfl | rfl
      · have := first.2 line
        omega
      · have := second.2 line
        omega

namespace Inheritance

theorem mem_children_iff (h : Inheritance law p) : id ∈ p.children parent ↔
    ∃ parents, p.HasParents id parents ∧ (parent = parents.1 ∨ parent = parents.2) := by
  rw [children, Dag.mem_children]
  constructor
  · rintro ⟨v, hv, hparent, rfl⟩
    cases named : v.value.account.parentIds with
    | none =>
      rw [h.edges v hv, DigestSet.mem_ofList, Account.parentList, named] at hparent
      cases hparent
    | some parents =>
      exact ⟨parents, ⟨_, account?_eq_some_iff.2 ⟨v, hv, rfl, rfl⟩, named⟩,
        (h.mem_parents_iff hv named parent).1 hparent⟩
  · rintro ⟨parents, ⟨a, ha, named⟩, one⟩
    obtain ⟨v, hv, rfl, rfl⟩ := account?_eq_some_iff.1 ha
    exact ⟨v, hv, (h.mem_parents_iff hv named parent).2 one, rfl⟩

theorem toNat_childLifecycle (h : Inheritance law p) {first second : Steps}
    (hfirst : p.lifecycle? parents.1 = some first)
    (hsecond : p.lifecycle? parents.2 = some second) :
    (p.childLifecycle parents).toNat =
      max law.minLifetime.toNat (max first.toNat second.toNat / 2) := by
  rw [childLifecycle, hfirst, hsecond, h.law_eq]
  simp only [Option.getD_some, UInt64.toNat_max, UInt64.toNat_div]
  rfl

/-- Everybody lives as long as the generation does. Parents are above their children in the graph, so
this is by induction down its edges. -/
theorem exists_generation (h : Inheritance law p) : ∀ id ∈ p, ∃ d lifecycle,
    p.Generation id d ∧ p.lifecycle? id = some lifecycle ∧ lifecycle.toNat = law.lifetimeAt d := by
  refine p.residents.grown.induction fun v hv ih => ?_
  have hl : p.lifecycle? v.id = some v.value.lifecycle := by
    rw [lifecycle?, Dag.value?_eq_some_iff.2 ⟨v, hv, rfl, rfl⟩, Option.map_some]
  cases h.inherits v hv with
  | genesis founder _ lifecycle =>
    refine ⟨0, _, .of_isGenesis founder, hl, ?_⟩
    rw [lifecycle, h.law_eq, Law.Parameters.lifetimeAt_zero h.valid]
  | @child parents later named lifecycle =>
    have edge := h.mem_parents_iff hv named
    obtain ⟨i, first, hi, hfirst, ei⟩ := ih parents.1 ((edge _).2 (.inl rfl))
    obtain ⟨j, second, hj, hsecond, ej⟩ := ih parents.2 ((edge _).2 (.inr rfl))
    have hasParents : p.HasParents v.id parents :=
      ⟨_, account?_eq_some_iff.2 ⟨v, hv, rfl, rfl⟩, named⟩
    refine ⟨min i j + 1, _, .child later hasParents hi hj, hl, ?_⟩
    rw [lifecycle, h.toNat_childLifecycle hfirst hsecond, ei, ej, law.lifetimeAt_succ]

end Inheritance

/-- Along the edges to its parents every account has a generation. It lives as long as the genesis
accounts divided by two for each generation, but not less than the minimum. -/
theorem lifecycle_by_generation (h : Reached g law p) :
    (∀ id parent, id ∈ p.children parent ↔
      ∃ parents, p.HasParents id parents ∧ (parent = parents.1 ∨ parent = parents.2)) ∧
    ∀ id ∈ p, ∃ d lifecycle, IsLeast {n | p.Descends n id} d ∧ (d = 0 ↔ p.IsGenesis id) ∧
      p.lifecycle? id = some lifecycle ∧
      lifecycle.toNat = max law.minLifetime.toNat (law.genesisLifecycle.toNat / 2 ^ d) ∧
      law.minLifetime ≤ lifecycle ∧ lifecycle ≤ law.genesisLifecycle ∧
      4 * law.quarter.toNat ≤ lifecycle.toNat ∧
      (law.genesisLifetime = none → 4 ≤ d → lifecycle = law.minLifetime) := by
  have inheritance := h.inheritance
  refine ⟨fun _ _ => inheritance.mem_children_iff, ?_⟩
  intro id hid
  obtain ⟨d, lifecycle, generation, hl, lives⟩ := inheritance.exists_generation id hid
  have low := law.minLifetime_le_lifetimeAt d
  have high := law.lifetimeAt_antitone (Nat.zero_le d)
  rw [Law.Parameters.lifetimeAt_zero inheritance.valid] at high
  rw [← lives] at low high
  have quarters : 4 * law.quarter.toNat ≤ lifecycle.toNat := by
    rw [law.toNat_quarter]
    omega
  refine ⟨d, lifecycle, generation, generation.eq_zero_iff, hl, lives, UInt64.le_iff_toNat_le.2 low,
    UInt64.le_iff_toNat_le.2 high, quarters, ?_⟩
  intro unset late
  exact UInt64.toNat_inj.1 (lives.trans (Law.Parameters.lifetimeAt_of_four_le unset late))

/-- Abel is of the first generation and lives half as long as Adam and Eve. -/
theorem lifecycle_by_generation_abel : ∃ p, Reached Sample.genesis Sample.law p ∧
    IsLeast {n | p.Descends n Sample.abelId} 1 ∧ p.lifecycle? Sample.abelId = some 32 := by
  obtain ⟨u, hu, -, told⟩ := Sample.exists_founded
  obtain ⟨p, u₁, created⟩ := Universe.exists_created hu
  have linked : Universe.Linked u := Universe.Reachable.linked (.create hu)
  have evolves : u.Evolves (u.add Sample.birth).1 :=
    Universe.perform_evolves linked (.add Sample.birth)
  have start : History Sample.genesis Sample.law [] u.population :=
    created.population_eq ▸ .found created.founded
  obtain ⟨past, history⟩ := evolves.exists_history start
  have parents := Sample.hasParents_abel hu told
  have ⟨a, ha, named⟩ := parents
  have adam : (u.add Sample.birth).1.population.IsGenesis Sample.adamId := by
    rw [IsGenesis, evolves.grows.genesis_eq]
    exact created.isGenesis_sender
  have line : (u.add Sample.birth).1.population.Descends 1 Sample.abelId :=
    .child parents (.inl rfl) (.genesis adam)
  obtain ⟨-, lives⟩ := lifecycle_by_generation history.reached
  obtain ⟨d, lifecycle, least, zero, hl, hd, -⟩ := lives Sample.abelId (mem_iff_account?.2 ⟨a, ha⟩)
  have born : d ≠ 0 := by
    intro hzero
    have unborn := (history.pedigree.parents_eq_none_iff ha).2 (zero.1 hzero)
    rw [Account.parentIds, unborn] at named
    cases named
  have one : d = 1 := Nat.le_antisymm (least.2 line) (Nat.one_le_iff_ne_zero.2 born)
  subst one
  have half : lifecycle = 32 := UInt64.toNat_inj.1 (hd.trans (by decide))
  exact ⟨_, history.reached, least, half ▸ hl⟩

end Population

end Lineage
