import Lineage.Proofs.Key.Signatures
import Mathlib.Data.List.Basic

/-!
# What a check of a signature comes to

A signature that fits a key falls into as many parts as the key has points, and nothing is left
over. The check is good just if every point bears out the part with its own number. The parts may as
well be judged in turn, up to the first that is not borne out: when the points lie on the curve none
of them is refused on the way.
-/
namespace Lineage.PublicKey

variable {k : PublicKey} {digest : Word256} {signature : Octets}

/-- The part of a signature for the point with the number `i`. -/
def part (signature : Octets) (i : Nat) : Octets :=
  (signature.drop (Point.signatureLength * i)).take Point.signatureLength

/-- Every point bears out the part with its own number. -/
def BornOut (k : PublicKey) (digest : Word256) (signature : Octets) : Prop :=
  ∀ i (h : i < k.points.length), k.points[i].verifies digest (part signature i) = true

theorem pieces_of_fits (h : k.Fits signature) :
    signature.pieces Point.signatureLength = (List.range k.points.length).map (part signature) := by
  have count : (signature.length + Point.signatureLength - 1) / Point.signatureLength =
      k.points.length := by
    rw [h.2, Point.signatureLength]
    omega
  rw [Octets.pieces, count]
  rfl

theorem flatten_parts (signature : Octets) (n : Nat) :
    ((List.range n).map (part signature)).flatten = signature.take (Point.signatureLength * n) := by
  induction n with
  | zero => rfl
  | succ n ih =>
    rw [List.range_succ, List.map_append, List.flatten_append, ih, Nat.mul_succ, List.take_add]
    simp [part]

/-- Each octet of a signature that fits is in one of the parts. -/
theorem Fits.flatten_parts (h : k.Fits signature) :
    ((List.range k.points.length).map (part signature)).flatten = signature := by
  rw [PublicKey.flatten_parts]
  exact List.take_of_length_le (Nat.le_of_eq (h.2.trans (Nat.mul_comm ..)))

theorem verifiesParts_iff (h : k.Fits signature) :
    k.verifiesParts digest (signature.pieces Point.signatureLength) = true ↔
      k.BornOut digest signature := by
  rw [verifiesParts, pieces_of_fits h, List.all_eq_true, List.forall_mem_iff_getElem]
  simp only [List.length_zip, List.length_map, List.length_range, Nat.min_self, List.getElem_zip,
    List.getElem_map, List.getElem_range]
  rfl

/-- What the check of a signature comes to: an error for its length, or one verdict on all parts. -/
inductive Verdict (k : PublicKey) (digest : Word256) (signature : Octets) :
    Except KeyError Bool → Prop where
  | misfit {e : KeyError} (misfit : Misfit k signature e) : Verdict k digest signature (.error e)
  | good (fits : k.Fits signature) (all : k.BornOut digest signature) :
      Verdict k digest signature (.ok true)
  | bad (fits : k.Fits signature) (not_all : ¬ k.BornOut digest signature) :
      Verdict k digest signature (.ok false)

theorem Verdict.verify_eq {result : Except KeyError Bool} (h : Verdict k digest signature result) :
    k.verify digest signature = result := by
  cases h with
  | misfit misfit => exact misfit.verify_eq digest
  | good fits all => rw [verify_of_fits fits, (verifiesParts_iff fits).2 all]
  | bad fits not_all =>
    rw [verify_of_fits fits, Bool.eq_false_iff.2 (mt (verifiesParts_iff fits).1 not_all)]

theorem verdict_verify (k : PublicKey) (digest : Word256) (signature : Octets) :
    Verdict k digest signature (k.verify digest signature) := by
  by_cases fits : k.Fits signature
  · by_cases all : k.BornOut digest signature
    · have good := Verdict.good fits all
      rwa [good.verify_eq]
    · have bad := Verdict.bad fits all
      rwa [bad.verify_eq]
  · obtain ⟨e, misfit⟩ := exists_misfit fits
    rw [misfit.verify_eq]
    exact .misfit misfit

theorem verify_eq_iff {result : Except KeyError Bool} :
    k.verify digest signature = result ↔ Verdict k digest signature result :=
  ⟨fun h => h ▸ verdict_verify k digest signature, Verdict.verify_eq⟩

/-- The verdict of one point, which is looked up on the curve first. -/
def judgePart (digest : Word256) (p : Point) (part : Octets) : Except KeyError Bool := do
  let q ← Point.ofCoordinates p.x p.y
  return q.verifies digest part

/-- Judges parts in turn, up to the first that its point does not bear out or the end of either
list. -/
def judgeInTurn (digest : Word256) : List Point → List Octets → Except KeyError Bool
  | p :: ps, part :: parts => do
    if ← judgePart digest p part then judgeInTurn digest ps parts else return false
  | _, _ => .ok true

/-- No point of the curve is refused. -/
theorem judgePart_eq {p : Point} (onCurve : p.OnCurve) (part : Octets) :
    judgePart digest p part = .ok (p.verifies digest part) := by
  have found : Point.ofCoordinates p.x p.y = .ok p := if_pos onCurve
  rw [judgePart, found]
  rfl

theorem judgeInTurn_eq {ps : List Point} (onCurve : ∀ p ∈ ps, p.OnCurve) (parts : List Octets) :
    judgeInTurn digest ps parts =
      .ok ((ps.zip parts).all fun (p, part) => p.verifies digest part) := by
  induction ps generalizing parts with
  | nil => rfl
  | cons p ps ih =>
    cases parts with
    | nil => rfl
    | cons part parts =>
      have rest := ih (fun q hq => onCurve q (List.mem_cons_of_mem p hq)) parts
      rw [judgeInTurn, judgePart_eq (onCurve p List.mem_cons_self), rest, List.zip_cons_cons,
        List.all_cons]
      cases hp : p.verifies digest part <;> simp [hp, bind, Except.bind, pure, Except.pure]

theorem verify_eq_judgeInTurn (onCurve : ∀ p ∈ k.points, p.OnCurve) (h : k.Fits signature) :
    k.verify digest signature =
      judgeInTurn digest k.points (signature.pieces Point.signatureLength) := by
  rw [verify_of_fits h, judgeInTurn_eq onCurve, verifiesParts]

/-- Nothing is long enough for no points and not empty. -/
theorem not_fits_of_points_eq_nil (none : k.points = []) : ¬ k.Fits signature := by
  rintro ⟨ne, length⟩
  rw [none, List.length_nil, Nat.zero_mul] at length
  exact ne (List.length_eq_zero_iff.1 length)

/-- The check of a signature is an error just if its length does not fit the key. Otherwise it is
good just if each point bears out its own part, and without points nothing is good. -/
theorem verify_all_or_nothing (k : PublicKey) (onCurve : ∀ p ∈ k.points, p.OnCurve)
    (digest : Word256) (signature : Octets) :
    (∀ result, k.verify digest signature = result ↔ Verdict k digest signature result) ∧
    (k.Fits signature →
      ((List.range k.points.length).map (part signature)).flatten = signature ∧
      k.verify digest signature =
        judgeInTurn digest k.points (signature.pieces Point.signatureLength)) ∧
    (k.points = [] → ∀ verdict, k.verify digest signature ≠ .ok verdict) := by
  refine ⟨fun _ => verify_eq_iff, ?whole, ?empty⟩
  case whole =>
    intro fits
    exact ⟨fits.flatten_parts, verify_eq_judgeInTurn onCurve fits⟩
  case empty =>
    intro none verdict good
    exact not_fits_of_points_eq_nil none (fits_of_verify_eq_ok good)

end Lineage.PublicKey

namespace Lineage.Sample

/-- The public point of the secret one. -/
def base : Point where
  x := .ofNat 0x6b17d1f2e12c4247f8bce6e563a440f277037d812deb33a0f4a13945d898c296
  y := .ofNat 0x4fe342e2fe1a7f9b8ee7eb4a7c0f9e162bce33576b315ececbb6406837bf51f5

/-- A signature of the digest zero by the secret one. -/
def basePart : Octets :=
  Octets.ofNat 32 0x0e6b3bb68d65aa645104de3abb94cbc6f568e2d55ea511d0e6d300e177002159 ++
    Octets.ofNat 32 0x167afc0b518bd63853ccc1b5292e27024c557c8924ca3dec81d59651b9021794

theorem base_verifies : base.verifies default basePart = true := by decide +kernel

theorem length_basePart : basePart.length = Point.signatureLength := by
  rw [basePart, List.length_append, Octets.length_ofNat, Octets.length_ofNat, Point.signatureLength]

/-- One key that stands twice. -/
def twice : PublicKey := .threshold [base, base]

theorem fits_twice {part : Octets} (h : part.length = Point.signatureLength) :
    twice.Fits (basePart ++ part) := by
  have length : (basePart ++ part).length = 2 * Point.signatureLength := by
    rw [List.length_append, length_basePart, h, Nat.two_mul]
  refine ⟨fun empty => ?_, length⟩
  rw [empty, List.length_nil, Point.signatureLength] at length
  omega

end Lineage.Sample

namespace Lineage.PublicKey

open Sample

/-- A key that stands twice signs twice. One part that is not borne out or that is missing spoils
the other one, and a part does not sign for a set without keys. -/
theorem verify_all_or_nothing_twice :
    (∀ p ∈ twice.points, p.OnCurve) ∧
    twice.verify default (basePart ++ basePart) = .ok true ∧
    twice.verify default (basePart ++ List.replicate 64 0) = .ok false ∧
    twice.verify default basePart = .error (.keyCountMismatch 2 1) ∧
    (threshold []).verify default basePart ≠ .ok true := by
  have onCurve : ∀ p ∈ twice.points, p.OnCurve := by decide +kernel
  have check (signature : Octets) := (verify_all_or_nothing twice onCurve default signature).1
  refine ⟨onCurve, ?good, ?bad, ?missing, ?none⟩
  case good =>
    refine (check _ _).2 (.good (fits_twice length_basePart) ?_)
    intro i h
    obtain rfl | rfl : i = 0 ∨ i = 1 := by
      have : i < 2 := h
      omega
    · exact base_verifies
    · exact base_verifies
  case bad =>
    refine (check _ _).2 (.bad (fits_twice List.length_replicate) fun all => ?_)
    have second : base.verifies default (part (basePart ++ List.replicate 64 0) 1) = true :=
      all 1 (by decide)
    exact absurd second (by decide +kernel)
  case missing =>
    refine (check _ _).2 (.misfit (.miscounted ?_ ?_))
    · rw [Torn, length_basePart, Point.signatureLength]
      decide
    · rw [length_basePart]
      decide
  case none =>
    have empty : ∀ p ∈ (threshold []).points, p.OnCurve := by
      intro p hp
      exact absurd hp List.not_mem_nil
    exact (verify_all_or_nothing (threshold []) empty default basePart).2.2 rfl true

end Lineage.PublicKey
