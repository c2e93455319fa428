import Lineage.Proofs.Dag.Tables

/-!
# Searches for ancestors

A search visits every id that it finds once, so it ends after as many rounds as there are vertices.
What is pending has been found, what has been found is an ancestor, and the parents of all that has
been visited have been found. Hence a search that is at its end has found all ancestors, and both
loops agree with each other and with the walk from the newest vertex to the oldest.
-/
namespace Lineage.Dag

/-- A loop ends with an answer of the kind that is wanted, if each round keeps an invariant and
lowers a measure. -/
theorem exists_loopWithin {σ ρ : Type} {round : σ → σ ⊕ ρ} {wanted : ρ → Prop} (inv : σ → Prop)
    (measure : σ → Nat)
    (next : ∀ s s', inv s → round s = .inl s' → inv s' ∧ measure s' < measure s)
    (done : ∀ s answer, inv s → round s = .inr answer → wanted answer) {n : Nat} {s : σ}
    (h : inv s) (enough : measure s < n) :
    ∃ answer, loopWithin round n s = some answer ∧ wanted answer := by
  induction n generalizing s with
  | zero => exact absurd enough (Nat.not_lt_zero _)
  | succ n ih =>
    rw [loopWithin]
    cases hr : round s with
    | inl s' =>
      obtain ⟨h', lower⟩ := next s s' h hr
      exact ih h' (by omega)
    | inr answer => exact ⟨answer, rfl, done s answer h hr⟩

variable {α : Type} {t : Tables α} {g : Dag α} {s : Search} {ps : List Digest} {a b d p : Digest}

namespace Search

theorem mem_found_note : d ∈ (s.note p).found ↔ d ∈ s.found ∨ d = p := by
  rw [note]
  split
  · next hp =>
    refine ⟨.inl, ?_⟩
    rintro (hd | rfl)
    · exact hd
    · exact hp
  · rw [DigestSet.mem_insert, or_comm]

theorem mem_pending_note : d ∈ (s.note p).pending ↔ d ∈ s.pending ∨ (d = p ∧ d ∉ s.found) := by
  rw [note]
  split
  · next hp =>
    refine ⟨.inl, ?_⟩
    rintro (hd | ⟨rfl, hout⟩)
    · exact hd
    · exact absurd hp hout
  · next hp =>
    rw [List.mem_cons, or_comm]
    refine or_congr_right ⟨?_, And.left⟩
    rintro rfl
    exact ⟨rfl, hp⟩

theorem mem_found_noteAll : d ∈ (ps.foldl note s).found ↔ d ∈ s.found ∨ d ∈ ps := by
  induction ps generalizing s with
  | nil => simp
  | cons p ps ih => rw [List.foldl_cons, ih, mem_found_note, List.mem_cons, or_assoc]

theorem mem_pending_noteAll :
    d ∈ (ps.foldl note s).pending ↔ d ∈ s.pending ∨ (d ∈ ps ∧ d ∉ s.found) := by
  induction ps generalizing s with
  | nil => simp
  | cons p ps ih =>
    rw [List.foldl_cons, ih, mem_pending_note, mem_found_note, List.mem_cons]
    by_cases hd : d = p <;> by_cases hfound : d ∈ s.found <;> simp [hd, hfound]

theorem noteUntil_eq {target : Digest} :
    noteUntil target ps s = if target ∈ ps then .inr true else .inl (ps.foldl note s) := by
  induction ps generalizing s with
  | nil => rfl
  | cons p ps ih =>
    rw [noteUntil, ih]
    by_cases hp : p = target
    · simp [hp]
    · simp [hp, Ne.symm hp]

/-- The ids of a graph that a search has not found, with those that it still has to visit. -/
def left (order : List Digest) (s : Search) : Nat :=
  s.pending.length + order.countP fun d => decide (d ∉ s.found)

/-- An id that is noted goes over from those that have not been found to those to be visited. -/
theorem left_note {order : List Digest} (distinct : order.Nodup) (hp : p ∈ order) :
    (s.note p).left order = s.left order := by
  rw [note]
  split
  · rfl
  · next hout =>
    have front : order.Perm (p :: order.erase p) := List.perm_cons_erase hp
    have others : (order.erase p).countP (fun d => decide (d ∉ s.found.insert p)) =
        (order.erase p).countP fun d => decide (d ∉ s.found) := by
      refine List.countP_congr fun d hd => ?_
      have hne : d ≠ p := (distinct.mem_erase_iff.1 hd).1
      simp [hne]
    rw [left, left, front.countP_eq, front.countP_eq, List.countP_cons_of_neg (by simp),
      List.countP_cons_of_pos (by simpa using hout), others, List.length_cons]
    omega

theorem left_noteAll {order : List Digest} (distinct : order.Nodup) (hps : ∀ p ∈ ps, p ∈ order) :
    (ps.foldl note s).left order = s.left order := by
  induction ps generalizing s with
  | nil => rfl
  | cons p ps ih =>
    rw [List.forall_mem_cons] at hps
    rw [List.foldl_cons, ih hps.2, left_note distinct hps.1]

end Search

namespace Tables

/-- The parents of an id, none if there is no vertex with it. -/
def parentsOf (t : Tables α) (id : Digest) : List Digest :=
  ((t.vertices.get? id).map fun v => v.parents.toList).getD []

def IsParent (t : Tables α) (p d : Digest) : Prop :=
  ∃ v, t.vertices.get? d = some v ∧ p ∈ v.parents

/-- What one or more parent edges lead to. -/
def Ancestor (t : Tables α) : Digest → Digest → Prop := Relation.TransGen t.IsParent

theorem mem_parentsOf : p ∈ t.parentsOf d ↔ t.IsParent p d := by
  rw [parentsOf, IsParent]
  cases t.vertices.get? d with
  | none => simp
  | some v => simp [DigestSet.mem_def]

/-- The search when an id has been visited. -/
def visit (t : Tables α) (id : Digest) (rest : List Digest) (found : DigestSet) : Search :=
  (t.parentsOf id).foldl Search.note ⟨rest, found⟩

theorem collect_eq_inl_iff {s' : Search} : t.collect s = .inl s' ↔
    ∃ id rest, s.pending = id :: rest ∧ s' = t.visit id rest s.found := by
  rw [collect]
  cases s.pending with
  | nil => simp
  | cons id rest =>
    cases hv : t.vertices.get? id <;> simp [visit, parentsOf, hv, eq_comm]

theorem seek_eq_inl_iff {target : Digest} {s' : Search} : t.seek target s = .inl s' ↔
    ∃ id rest, s.pending = id :: rest ∧ ¬ t.IsParent target id ∧ s' = t.visit id rest s.found := by
  rw [seek]
  cases s.pending with
  | nil => simp
  | cons id rest =>
    simp only [← mem_parentsOf]
    cases hv : t.vertices.get? id with
    | none => simp [visit, parentsOf, hv, eq_comm]
    | some v =>
      by_cases hit : target ∈ v.parents.toList <;>
        simp [Search.noteUntil_eq, visit, parentsOf, hv, hit, eq_comm]

theorem collect_eq_inr_iff {found : DigestSet} : t.collect s = .inr found ↔
    s.pending = [] ∧ found = s.found := by
  rw [collect]
  cases s.pending with
  | nil => simp [eq_comm]
  | cons id rest => cases hv : t.vertices.get? id <;> simp [hv]

theorem seek_eq_inr_iff {target : Digest} {answer : Bool} : t.seek target s = .inr answer ↔
    (s.pending = [] ∧ answer = false) ∨
      ∃ id ∈ s.pending.head?, t.IsParent target id ∧ answer = true := by
  rw [seek]
  cases s.pending with
  | nil => simp [eq_comm]
  | cons id rest =>
    simp only [← mem_parentsOf]
    cases hv : t.vertices.get? id with
    | none => simp [parentsOf, hv]
    | some v =>
      by_cases hit : target ∈ v.parents.toList <;>
        simp [Search.noteUntil_eq, parentsOf, hv, hit, eq_comm]

/-- A search for ancestors that has found some and still has some ids to visit. -/
structure Underway (t : Tables α) (start : Digest) (s : Search) : Prop where
  pending : ∀ d ∈ s.pending, d = start ∨ d ∈ s.found
  sound : ∀ d ∈ s.found, t.Ancestor d start
  closed : ∀ d, d = start ∨ d ∈ s.found → d ∈ s.pending ∨ ∀ p, t.IsParent p d → p ∈ s.found

theorem underway_start (t : Tables α) (d : Digest) : t.Underway d (.start d) := by
  refine ⟨?_, ?_, ?_⟩ <;> simp [Search.start]

namespace Underway

variable {start id : Digest} {rest : List Digest}

/-- The parents of what is visited are ancestors. -/
theorem ancestor_of_parent (h : t.Underway start s) (hid : id ∈ s.pending)
    (hp : t.IsParent p id) : t.Ancestor p start := by
  rcases h.pending id hid with rfl | hfound
  · exact .single hp
  · exact .head hp (h.sound id hfound)

theorem visit (h : t.Underway start s) (hs : s.pending = id :: rest) :
    t.Underway start (t.visit id rest s.found) := by
  have mem_found : ∀ d, d ∈ (t.visit id rest s.found).found ↔ d ∈ s.found ∨ t.IsParent d id := by
    intro d
    rw [Tables.visit, Search.mem_found_noteAll, mem_parentsOf]
  have mem_pending : ∀ d, d ∈ (t.visit id rest s.found).pending ↔
      d ∈ rest ∨ (t.IsParent d id ∧ d ∉ s.found) := by
    intro d
    rw [Tables.visit, Search.mem_pending_noteAll, mem_parentsOf]
  have hid : id ∈ s.pending := hs ▸ List.mem_cons_self ..
  refine ⟨?_, ?_, ?_⟩
  · intro d hd
    rw [mem_found]
    rcases (mem_pending d).1 hd with hd | ⟨hd, _⟩
    · exact (h.pending d (hs ▸ List.mem_cons_of_mem id hd)).imp_right .inl
    · exact .inr (.inr hd)
  · intro d hd
    rcases (mem_found d).1 hd with hd | hd
    · exact h.sound d hd
    · exact h.ancestor_of_parent hid hd
  · intro d hd
    by_cases old : d = start ∨ d ∈ s.found
    · rcases h.closed d old with hd | hparents
      · rcases List.mem_cons.1 (hs ▸ hd) with rfl | hd
        · exact .inr fun p hp => (mem_found p).2 (.inr hp)
        · exact .inl ((mem_pending d).2 (.inl hd))
      · exact .inr fun p hp => (mem_found p).2 (.inl (hparents p hp))
    · rw [not_or] at old
      rcases hd with rfl | hd
      · exact absurd rfl old.1
      · have hparent := ((mem_found d).1 hd).resolve_left old.2
        exact .inl ((mem_pending d).2 (.inr ⟨hparent, old.2⟩))

/-- A search without anything left to visit has found all ancestors. -/
theorem mem_found_iff (h : t.Underway start s) (done : s.pending = []) :
    a ∈ s.found ↔ t.Ancestor a start := by
  have closed : ∀ d, d = start ∨ d ∈ s.found → ∀ p, t.IsParent p d → p ∈ s.found := by
    intro d hd
    exact (h.closed d hd).resolve_left (by simp [done])
  refine ⟨h.sound a, fun ha => ?_⟩
  induction ha using Relation.TransGen.head_induction_on with
  | single hp => exact closed start (.inl rfl) _ hp
  | head hp _ ih => exact closed _ (.inr ih) _ hp

end Underway

namespace Consistent

theorem parent_mem_order (h : t.Consistent) (hp : t.IsParent p d) : p ∈ t.order := by
  obtain ⟨v, hv, hp⟩ := hp
  exact (h.mem_order p).2 (h.parents d v hv p hp).1

/-- A visit takes one id off those that are left. -/
theorem left_visit_lt (h : t.Consistent) {id : Digest} {rest : List Digest}
    (hs : s.pending = id :: rest) :
    (t.visit id rest s.found).left t.order < s.left t.order := by
  rw [visit, Search.left_noteAll h.nodup_order fun p hp => h.parent_mem_order (mem_parentsOf.1 hp),
    Search.left, Search.left, hs, List.length_cons]
  exact Nat.add_lt_add_right (Nat.lt_succ_self _) _

theorem left_start_lt (t : Tables α) (d : Digest) {n : Nat} (enough : t.order.length + 2 ≤ n) :
    (Search.start d).left t.order < n := by
  calc (Search.start d).left t.order
      ≤ 1 + t.order.length := Nat.add_le_add_left List.countP_le_length 1
    _ < n := by omega

theorem exists_ancestorsWithin (h : t.Consistent) {n : Nat} (enough : t.order.length + 2 ≤ n)
    (d : Digest) :
    ∃ found, t.ancestorsWithin n d = some found ∧ ∀ a, a ∈ found ↔ t.Ancestor a d := by
  apply exists_loopWithin (t.Underway d) (Search.left t.order)
  · intro s s' underway hround
    obtain ⟨id, rest, hs, rfl⟩ := collect_eq_inl_iff.1 hround
    exact ⟨underway.visit hs, h.left_visit_lt hs⟩
  · intro s found underway hround
    obtain ⟨done, rfl⟩ := collect_eq_inr_iff.1 hround
    exact fun a => underway.mem_found_iff done
  · exact underway_start t d
  · exact left_start_lt t d enough

theorem exists_seekWithin (h : t.Consistent) {n : Nat} (enough : t.order.length + 2 ≤ n)
    (target d : Digest) : ∃ answer, loopWithin (t.seek target) n (.start d) = some answer ∧
      (answer = true ↔ t.Ancestor target d) := by
  apply exists_loopWithin (fun s => t.Underway d s ∧ target ∉ s.found) (Search.left t.order)
  · rintro s s' ⟨underway, unfound⟩ hround
    obtain ⟨id, rest, hs, hno, rfl⟩ := seek_eq_inl_iff.1 hround
    refine ⟨⟨underway.visit hs, ?_⟩, h.left_visit_lt hs⟩
    rw [visit, Search.mem_found_noteAll, mem_parentsOf]
    exact not_or.2 ⟨unfound, hno⟩
  · rintro s answer ⟨underway, unfound⟩ hround
    rcases seek_eq_inr_iff.1 hround with ⟨done, rfl⟩ | ⟨id, hid, hparent, rfl⟩
    · simpa using mt (underway.mem_found_iff done).2 unfound
    · simpa using underway.ancestor_of_parent (List.mem_of_mem_head? hid) hparent
  · exact ⟨underway_start t d, DigestSet.not_mem_empty⟩
  · exact left_start_lt t d enough

end Consistent

namespace Represents

theorem isParent_iff (h : t.Represents g) : t.IsParent p d ↔ ParentIn g.newestFirst p d := by
  simp only [IsParent, ParentIn, h.vertices, get?_eq_some_iff, and_assoc]

/-- Tables and graph have one notion of an ancestor. -/
theorem ancestor_iff (h : t.Represents g) : t.Ancestor a d ↔ a ∈ g.ancestors d := by
  have same : t.IsParent = ParentIn g.newestFirst := by
    funext p d
    exact propext h.isParent_iff
  rw [Ancestor, same, mem_ancestors_iff]

theorem ancestorsWithin_eq (h : t.Represents g) {n : Nat} (enough : t.order.length + 2 ≤ n)
    (d : Digest) : t.ancestorsWithin n d = some (g.ancestors d) := by
  obtain ⟨found, hfound, mem_found⟩ := h.consistent.exists_ancestorsWithin enough d
  have heq : found = g.ancestors d :=
    DigestSet.ext_mem fun a => (mem_found a).trans h.ancestor_iff
  rw [hfound, heq]

theorem isAncestorWithin_eq (h : t.Represents g) {n : Nat} (enough : t.order.length + 2 ≤ n)
    (a d : Digest) : t.isAncestorWithin n a d = some (g.isAncestor a d) := by
  rw [isAncestorWithin]
  split
  · next heq => simp [heq, Dag.isAncestor]
  · obtain ⟨answer, hanswer, hiff⟩ := h.consistent.exists_seekWithin enough a d
    have heq : answer = g.isAncestor a d := by
      rw [Bool.eq_iff_iff, hiff, h.ancestor_iff, isAncestor_iff]
    rw [hanswer, heq]

theorem relatedWithin_eq (h : t.Represents g) {n : Nat} (enough : t.order.length + 2 ≤ n)
    (a b : Digest) : t.relatedWithin n a b = some (g.related a b) := by
  rw [relatedWithin, h.isAncestorWithin_eq enough a b, h.isAncestorWithin_eq enough b a, related]
  cases g.isAncestor a b <;> rfl

end Represents

/-- The loops end within `n` rounds with the answers that a graph gives, and these tell of one
relation, the strict order that parent edges span, which agrees with the order of insertion. -/
structure SearchRule (t : Tables α) (g : Dag α) (n : Nat) : Prop where
  ancestors : ∀ d, t.ancestorsWithin n d = some (g.ancestors d)
  isAncestor : ∀ a d, t.isAncestorWithin n a d = some (g.isAncestor a d)
  related : ∀ a b, t.relatedWithin n a b = some (g.related a b)
  mem_ancestors_iff : ∀ a d, a ∈ g.ancestors d ↔ t.Ancestor a d
  isAncestor_iff : ∀ a d, g.isAncestor a d = true ↔ a ∈ g.ancestors d
  related_iff : ∀ a b, g.related a b = true ↔ a ∈ g.ancestors b ∨ b ∈ g.ancestors a
  irrefl : ∀ a, ¬ t.Ancestor a a
  asymm : ∀ a b, t.Ancestor a b → ¬ t.Ancestor b a
  trans : ∀ a b c, t.Ancestor a b → t.Ancestor b c → t.Ancestor a c
  precedes : ∀ a d, t.Ancestor a d → t.Precedes a d

/-- In tables that come about by any requests, two rounds more than there are vertices are enough
to find all ancestors of any id, and to tell of any two ids whether they are related. -/
theorem search_ancestors (requests : List (Request α)) (more : Nat) :
    SearchRule (ofRequests requests) (.ofRequests requests)
      ((ofRequests requests).order.length + 2 + more) := by
  have represents := represents_ofRequests requests
  have enough := Nat.le_add_right ((ofRequests requests).order.length + 2) more
  have irrefl : ∀ a, ¬ (ofRequests requests).Ancestor a a := by
    intro a ha
    exact not_mem_ancestors_self (represents.ancestor_iff.1 ha)
  constructor
  case ancestors => exact represents.ancestorsWithin_eq enough
  case isAncestor => exact represents.isAncestorWithin_eq enough
  case related => exact represents.relatedWithin_eq enough
  case mem_ancestors_iff => exact fun a d => represents.ancestor_iff.symm
  case isAncestor_iff => exact fun a d => isAncestor_iff
  case related_iff =>
    intro a b
    rw [Dag.related, Bool.or_eq_true, isAncestor_iff, isAncestor_iff]
  case irrefl => exact irrefl
  case asymm => exact fun a b hab hba => irrefl a (hab.trans hba)
  case trans => exact fun a b c => Relation.TransGen.trans
  case precedes =>
    intro a d ha
    rw [Tables.Precedes, represents.order]
    exact precedes_of_mem_ancestors (represents.ancestor_iff.1 ha)

end Tables

end Lineage.Dag
