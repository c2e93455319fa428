import Lineage.Proofs.Octets.Spelling
import Lineage.Proofs.Wire.Transport

/-!
# Which wire forms are keys

A wire form is taken if it comes from this source, its texts spell points of the curve, two texts to
a point, and the name of its scheme agrees with the number of the points. Otherwise the error is
about what is wrong first. The letter case of the texts is all that is lost: a key that has been
read is written with the same texts in lower case.
-/
namespace Lineage

/-- Whether two texts spell the coordinates of a point. -/
structure Point.SpelledBy (p : Point) (x y : String) : Prop where
  spells_x : Hex.Spells x p.x
  spells_y : Hex.Spells y p.y

namespace PublicKey

/-- Texts that spell points of the curve, two to each and in their order. -/
inductive SpellPoints : List String → List Point → Prop where
  | nil : SpellPoints [] []
  | cons {p : Point} {x y : String} {texts : List String} {ps : List Point}
      (spelled : p.SpelledBy x y) (onCurve : p.OnCurve) (rest : SpellPoints texts ps) :
      SpellPoints (x :: y :: texts) (p :: ps)

/-- The error for a text that spells no coordinate. -/
def badCoordinate (s : String) (e : Hex.Error) : KeyError :=
  .invalidKey ("bad coordinate " ++ Text.quoted s ++ ": " ++ e.message)

/-- What is wrong first with two texts that spell no point of the curve. -/
inductive PointFault (x y : String) : KeyError → Prop where
  | first {e : Hex.Error} (fault : Hex.WordFault x e) : PointFault x y (badCoordinate x e)
  | second {v : Word256} (spells : Hex.Spells x v) {e : Hex.Error} (fault : Hex.WordFault y e) :
      PointFault x y (badCoordinate y e)
  | offCurve {p : Point} (spelled : p.SpelledBy x y) (off : ¬ p.OnCurve) :
      PointFault x y .outOfRange

/-- The keys that a wire form stands for. -/
inductive Denotes (w : Wire) : PublicKey → Prop where
  | single (source : w.source = sourceName) (sigType : w.sigType = singleName) {p : Point}
      (spell : SpellPoints w.pubKey [p]) : Denotes w (.single p)
  | threshold (source : w.source = sourceName) (sigType : w.sigType = thresholdName)
      {ps : List Point} (spell : SpellPoints w.pubKey ps) (ne : ps ≠ []) : Denotes w (.threshold ps)

/-- What is wrong first with a wire form that stands for no key, in the order of the checks. -/
inductive WireFault (w : Wire) : KeyError → Prop where
  | source (foreign : w.source ≠ sourceName) : WireFault w (.sourceMismatch sourceName w.source)
  | odd (source : w.source = sourceName) (odd : w.pubKey.length % 2 = 1) :
      WireFault w (.invalidKey s!"odd coordinate count {w.pubKey.length}")
  | point (source : w.source = sourceName) (even : w.pubKey.length % 2 = 0)
      {before : List String} {x y : String} {after : List String}
      (split : w.pubKey = before ++ x :: y :: after) {ps : List Point}
      (earlier : SpellPoints before ps) {e : KeyError} (fault : PointFault x y e) : WireFault w e
  | single (source : w.source = sourceName) {ps : List Point} (spell : SpellPoints w.pubKey ps)
      (sigType : w.sigType = singleName) (ne : ps.length ≠ 1) :
      WireFault w (.keyCountMismatch 1 ps.length)
  | threshold (source : w.source = sourceName) (spell : SpellPoints w.pubKey [])
      (sigType : w.sigType = thresholdName) : WireFault w (.paramsMissing "threshold keys")
  | scheme (source : w.source = sourceName) {ps : List Point} (spell : SpellPoints w.pubKey ps)
      (neither : w.sigType ≠ singleName ∧ w.sigType ≠ thresholdName) :
      WireFault w (.unsupportedScheme w.sigType)

variable {w : Wire} {k : PublicKey} {e : KeyError} {x y : String} {p : Point}
  {texts before : List String} {ps : List Point}

theorem coordinate_of_spells {v : Word256} (h : Hex.Spells x v) : coordinate x = .ok v := by
  rw [coordinate, h.decodeWord_eq]

theorem coordinate_of_fault {e : Hex.Error} (h : Hex.WordFault x e) :
    coordinate x = .error (badCoordinate x e) := by
  rw [coordinate, h.decodeWord_eq]
  rfl

theorem pointsOf_cons (spelled : p.SpelledBy x y) (onCurve : p.OnCurve) (texts : List String) :
    pointsOf (x :: y :: texts) = (pointsOf texts).map (p :: ·) := by
  have point : Point.ofCoordinates p.x p.y = .ok p := if_pos onCurve
  simp only [pointsOf, coordinate_of_spells spelled.spells_x, coordinate_of_spells spelled.spells_y,
    Decoder.ok_bind, point]
  rfl

theorem PointFault.pointsOf_eq (h : PointFault x y e) (texts : List String) :
    pointsOf (x :: y :: texts) = .error e := by
  cases h with
  | first fault =>
    simp only [pointsOf, coordinate_of_fault fault]
    rfl
  | second spells fault =>
    simp only [pointsOf, coordinate_of_spells spells, coordinate_of_fault fault]
    rfl
  | @offCurve p spelled off =>
    have point : Point.ofCoordinates p.x p.y = .error .outOfRange := if_neg off
    simp only [pointsOf, coordinate_of_spells spelled.spells_x,
      coordinate_of_spells spelled.spells_y, Decoder.ok_bind, point]
    rfl

theorem point_or_fault (x y : String) :
    (∃ p : Point, p.SpelledBy x y ∧ p.OnCurve) ∨ ∃ e, PointFault x y e := by
  rcases Hex.spells_or_fault x with ⟨v, first⟩ | ⟨e, fault⟩
  · rcases Hex.spells_or_fault y with ⟨v', second⟩ | ⟨e, fault⟩
    · by_cases onCurve : (⟨v, v'⟩ : Point).OnCurve
      · exact .inl ⟨⟨v, v'⟩, ⟨first, second⟩, onCurve⟩
      · exact .inr ⟨_, .offCurve ⟨first, second⟩ onCurve⟩
    · exact .inr ⟨_, .second first fault⟩
  · exact .inr ⟨_, .first fault⟩

/-- Two texts that are at fault spell no point of the curve. -/
theorem PointFault.not_spelled (h : PointFault x y e) : ¬ (p.SpelledBy x y ∧ p.OnCurve) := by
  rintro ⟨spelled, onCurve⟩
  have read := pointsOf_cons spelled onCurve []
  rw [h.pointsOf_eq] at read
  cases read

namespace SpellPoints

theorem pointsOf_append (h : SpellPoints before ps) (texts : List String) :
    pointsOf (before ++ texts) = (pointsOf texts).map (ps ++ ·) := by
  induction h with
  | nil =>
    rw [List.nil_append]
    cases pointsOf texts with
    | error e => rfl
    | ok qs => rfl
  | cons spelled onCurve _ ih =>
    rw [List.cons_append, List.cons_append, pointsOf_cons spelled onCurve, ih]
    cases pointsOf texts with
    | error e => rfl
    | ok qs => rfl

theorem pointsOf_eq (h : SpellPoints texts ps) : pointsOf texts = .ok ps := by
  have read := h.pointsOf_append []
  rw [List.append_nil] at read
  rw [read]
  exact congrArg Except.ok (List.append_nil ps)

theorem length_eq (h : SpellPoints texts ps) : texts.length = 2 * ps.length := by
  induction h with
  | nil => rfl
  | cons _ _ _ ih =>
    simp only [List.length_cons]
    omega

/-- The points are written with the texts in lower case. -/
theorem coordinates_eq (h : SpellPoints texts ps) :
    (ps.flatMap fun p => [p.x.hex, p.y.hex]) = texts.map String.toLower := by
  induction h with
  | nil => rfl
  | cons spelled _ _ ih =>
    rw [List.flatMap_cons, ih, spelled.spells_x.hex_eq, spelled.spells_y.hex_eq]
    rfl

end SpellPoints

/-- An even number of texts spells points, or there are two texts at fault after some that do. -/
theorem spell_or_fault (texts : List String) (even : texts.length % 2 = 0) :
    (∃ ps, SpellPoints texts ps) ∨ ∃ before x y after ps e,
      texts = before ++ x :: y :: after ∧ SpellPoints before ps ∧ PointFault x y e := by
  induction texts using List.twoStepInduction with
  | nil => exact .inl ⟨[], .nil⟩
  | singleton x => cases even
  | cons_cons x y texts ih _ =>
    simp only [List.length_cons] at even
    rcases point_or_fault x y with ⟨p, spelled, onCurve⟩ | ⟨e, fault⟩
    · rcases ih (by omega) with ⟨ps, spell⟩ | ⟨before, x', y', after, ps, e, split, spell, fault⟩
      · exact .inl ⟨p :: ps, .cons spelled onCurve spell⟩
      · refine .inr ⟨x :: y :: before, x', y', after, p :: ps, e, ?_, .cons spelled onCurve spell,
          fault⟩
        rw [split]
        rfl
    · exact .inr ⟨[], x, y, texts, [], e, rfl, .nil, fault⟩

/-- Whether any two texts that belong together spell a point of the curve. -/
def PairsOnCurve (texts : List String) : Prop :=
  ∀ before x y after, texts = before ++ x :: y :: after → before.length % 2 = 0 →
    ∃ p : Point, p.SpelledBy x y ∧ p.OnCurve

/-- The texts that spell points, told without the points. -/
theorem exists_spell_iff : (∃ ps, SpellPoints texts ps) ↔
    texts.length % 2 = 0 ∧ (∀ s ∈ texts, Hex.IsWordText s) ∧ PairsOnCurve texts := by
  constructor
  · rintro ⟨ps, spell⟩
    refine ⟨by rw [spell.length_eq]; omega, ?words, ?pairs⟩
    case words =>
      induction spell with
      | nil => nofun
      | cons spelled _ _ ih =>
        intro s hs
        rcases List.mem_cons.1 hs with rfl | hs
        · exact spelled.spells_x.isWordText
        · rcases List.mem_cons.1 hs with rfl | hs
          · exact spelled.spells_y.isWordText
          · exact ih s hs
    case pairs =>
      induction spell with
      | nil =>
        intro before x y after split
        cases before <;> cases split
      | cons spelled onCurve _ ih =>
        intro before x y after split even
        match before with
        | [] =>
          cases split
          exact ⟨_, spelled, onCurve⟩
        | [_] => cases even
        | _ :: _ :: before =>
          simp only [List.cons_append, List.cons.injEq] at split
          simp only [List.length_cons] at even
          exact ih before x y after split.2.2 (by omega)
  · rintro ⟨even, -, pairs⟩
    rcases spell_or_fault texts even with spell | ⟨before, x, y, after, ps, e, split, spell, fault⟩
    · exact spell
    · have before_even : before.length % 2 = 0 := by
        rw [spell.length_eq]
        omega
      obtain ⟨p, point⟩ := pairs before x y after split before_even
      exact absurd point fault.not_spelled

theorem denotes_or_fault (w : Wire) : (∃ k, Denotes w k) ∨ ∃ e, WireFault w e := by
  by_cases source : w.source = sourceName
  · by_cases even : w.pubKey.length % 2 = 0
    · rcases spell_or_fault w.pubKey even with
        ⟨ps, spell⟩ | ⟨_, _, _, _, _, e, split, earlier, fault⟩
      · by_cases single : w.sigType = singleName
        · match ps with
          | [p] => exact .inl ⟨_, .single source single spell⟩
          | [] => exact .inr ⟨_, .single source spell single (by simp)⟩
          | _ :: _ :: _ => exact .inr ⟨_, .single source spell single (by simp)⟩
        · by_cases threshold : w.sigType = thresholdName
          · match ps with
            | [] => exact .inr ⟨_, .threshold source spell threshold⟩
            | p :: ps => exact .inl ⟨_, .threshold source threshold spell (List.cons_ne_nil p ps)⟩
          · exact .inr ⟨_, .scheme source spell ⟨single, threshold⟩⟩
      · exact .inr ⟨e, .point source even split earlier fault⟩
    · exact .inr ⟨_, .odd source (by omega)⟩
  · exact .inr ⟨_, .source source⟩

/-- A wire form whose texts spell points is checked for its scheme. -/
theorem ofWire_of_spell (source : w.source = sourceName) : SpellPoints w.pubKey ps →
    ofWire w =
      if w.sigType = singleName then
        match ps with
        | [p] => .ok (.single p)
        | _ => .error (.keyCountMismatch 1 ps.length)
      else if w.sigType = thresholdName then
        if ps.isEmpty then .error (.paramsMissing "threshold keys") else .ok (.threshold ps)
      else .error (.unsupportedScheme w.sigType) := by
  intro spell
  have even : w.pubKey.length % 2 = 0 := by
    rw [spell.length_eq]
    omega
  rw [ofWire, if_neg (fun ne => ne source), if_neg (fun ne => ne even), spell.pointsOf_eq]
  rfl

theorem Denotes.ofWire_eq (h : Denotes w k) : ofWire w = .ok k := by
  have differ : thresholdName ≠ singleName := by decide
  cases h with
  | single source sigType spell => rw [ofWire_of_spell source spell, if_pos sigType]
  | @threshold source sigType ps spell ne =>
    rw [ofWire_of_spell source spell, sigType, if_neg differ, if_pos rfl,
      if_neg (by rwa [List.isEmpty_iff])]

theorem WireFault.ofWire_eq (h : WireFault w e) : ofWire w = .error e := by
  have differ : thresholdName ≠ singleName := by decide
  cases h with
  | source foreign => rw [ofWire, if_pos foreign]
  | odd source odd =>
    rw [ofWire, if_neg (fun ne => ne source), if_pos (by omega)]
  | @point source even before x y after split ps earlier e fault =>
    have read := earlier.pointsOf_append (x :: y :: after)
    rw [fault.pointsOf_eq] at read
    rw [ofWire, if_neg (fun ne => ne source), if_neg (fun ne => ne even), split, read]
    rfl
  | @single source ps spell sigType ne =>
    rw [ofWire_of_spell source spell, if_pos sigType]
    cases ps with
    | nil => rfl
    | cons p ps =>
      cases ps with
      | nil => exact absurd rfl ne
      | cons _ _ => rfl
  | threshold source spell sigType =>
    rw [ofWire_of_spell source spell, sigType, if_neg differ, if_pos rfl]
    rfl
  | scheme source spell neither =>
    rw [ofWire_of_spell source spell, if_neg neither.1, if_neg neither.2]

theorem ofWire_exact (w : Wire) : (∀ k, ofWire w = .ok k ↔ Denotes w k) ∧
    ∀ e, ofWire w = .error e ↔ WireFault w e :=
  eq_iff_of_cover (denotes_or_fault w) (fun _ h => h.ofWire_eq) fun _ h => h.ofWire_eq

theorem Denotes.toWire_eq (h : Denotes w k) :
    k.toWire = { w with pubKey := w.pubKey.map String.toLower } := by
  cases h with
  | single source sigType spell => rw [toWire, points, spell.coordinates_eq, source, sigType]
  | threshold source sigType spell _ => rw [toWire, points, spell.coordinates_eq, source, sigType]

theorem Denotes.spell (h : Denotes w k) : SpellPoints w.pubKey k.points := by
  cases h with
  | single _ _ spell => exact spell
  | threshold _ _ spell _ => exact spell

/-- Whether the name of the scheme agrees with the number of texts. -/
def Wire.FitsScheme (w : Wire) : Prop :=
  w.sigType = singleName ∧ w.pubKey.length = 2 ∨ w.sigType = thresholdName ∧ 2 ≤ w.pubKey.length

theorem exists_denotes_iff (w : Wire) : (∃ k, Denotes w k) ↔
    w.source = sourceName ∧ (∃ ps, SpellPoints w.pubKey ps) ∧ w.FitsScheme := by
  constructor
  · rintro ⟨k, h⟩
    cases h with
    | single source sigType spell =>
      exact ⟨source, ⟨_, spell⟩, .inl ⟨sigType, spell.length_eq⟩⟩
    | threshold source sigType spell ne =>
      have pos := List.length_pos_iff.2 ne
      exact ⟨source, ⟨_, spell⟩, .inr ⟨sigType, by rw [spell.length_eq]; omega⟩⟩
  · rintro ⟨source, ⟨ps, spell⟩, ⟨sigType, length⟩ | ⟨sigType, length⟩⟩
    · have one : ps.length = 1 := by
        rw [spell.length_eq] at length
        omega
      obtain ⟨p, rfl⟩ := List.length_eq_one_iff.1 one
      exact ⟨_, .single source sigType spell⟩
    · have ne : ps ≠ [] := by
        rintro rfl
        rw [spell.length_eq, List.length_nil] at length
        omega
      exact ⟨_, .threshold source sigType spell ne⟩

/-- A wire form is taken just in case it meets the stated conditions, and otherwise the error is
about what is wrong first. The key is written with the same texts in lower case and read back. -/
theorem wire_acceptance_exact :
    (∀ w : Wire, (∃ k, ofWire w = .ok k) ↔
      w.source = sourceName ∧ w.pubKey.length % 2 = 0 ∧ (∀ s ∈ w.pubKey, Hex.IsWordText s) ∧
        PairsOnCurve w.pubKey ∧ w.FitsScheme) ∧
    (∀ w e, ofWire w = .error e ↔ WireFault w e) ∧
    (∀ w k, ofWire w = .ok k → SpellPoints w.pubKey k.points ∧
      k.toWire = { w with pubKey := w.pubKey.map String.toLower }) ∧
    ∀ k : PublicKey, k.Valid → ofWire k.toWire = .ok k ∧ decode k.toJson = .ok k := by
  refine ⟨?taken, fun w => (ofWire_exact w).2, ?written, ?back⟩
  case taken =>
    intro w
    have denotes : (∃ k, ofWire w = .ok k) ↔ ∃ k, Denotes w k := exists_congr (ofWire_exact w).1
    rw [denotes, exists_denotes_iff, exists_spell_iff, and_assoc, and_assoc]
  case written =>
    intro w k h
    have denotes := ((ofWire_exact w).1 k).1 h
    exact ⟨denotes.spell, denotes.toWire_eq⟩
  case back =>
    intro k valid
    exact ⟨ofWire_toWire valid, decode_toJson valid⟩

end PublicKey

/-- The wire form of Adam's key, with capitals in its first text. -/
def Sample.capitals : PublicKey.Wire :=
  ⟨"KINSHIP", "S2PK", ["51590B7A515140D2D784C85608668FDFEF8C82FD1F5BE52421554A0DC3D033ED",
    "e0c17da8904a727d8ae1bf36bf8a79260d012f00d4d80888d1d0bb44fda16da4"]⟩

namespace PublicKey

open Sample

/-- Capitals are read and lost, a foreign source is refused, and so is one key as a set of none. -/
theorem wire_acceptance_exact_adam :
    ofWire capitals = .ok adam.identity.key ∧
    adam.identity.key.toWire =
      { capitals with pubKey := capitals.pubKey.map String.toLower } ∧
    ofWire { capitals with source := "" } = .error (.sourceMismatch "KINSHIP" "") ∧
    ofWire { capitals with sigType := "MS", pubKey := [] } =
      .error (.paramsMissing "threshold keys") ∧
    ofWire adam.identity.key.toWire = .ok adam.identity.key := by
  have read : ofWire capitals = .ok adam.identity.key := by decide +kernel
  exact ⟨read, (wire_acceptance_exact.2.2.1 _ _ read).2,
    (wire_acceptance_exact.2.1 _ _).2 (.source (by decide)),
    (wire_acceptance_exact.2.1 _ _).2 (.threshold rfl .nil rfl),
    (wire_acceptance_exact.2.2.2 _ valid_adam).1⟩

end PublicKey

end Lineage
