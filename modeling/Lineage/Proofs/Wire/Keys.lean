import Lineage.Key.Private
import Lineage.Proofs.Wire.Forms

/-!
# Keys on the wire

The wire form of a key says everything about it: the name of the scheme tells one point from a list
of points, and the coordinates tell which points and in which order. The wire form of valid key
material is read back.
-/
namespace Lineage

namespace PublicKey

/-- Key material that keys can have: at least one point, and all points on the curve. -/
structure Valid (k : PublicKey) : Prop where
  onCurve : ∀ p ∈ k.points, p.OnCurve
  points_ne_nil : k.points ≠ []

theorem pointsOf_coordinates {ps : List Point} (h : ∀ p ∈ ps, p.OnCurve) :
    pointsOf (ps.flatMap fun p => [p.x.hex, p.y.hex]) = .ok ps := by
  induction ps with
  | nil => rfl
  | cons p ps ih =>
    have hrest := ih fun q hq => h q (List.mem_cons_of_mem p hq)
    have hp : Point.ofCoordinates p.x p.y = .ok p := if_pos (h p List.mem_cons_self)
    simp only [List.flatMap_cons, List.cons_append, List.nil_append, pointsOf, coordinate,
      Hex.decodeWord_hex, Decoder.ok_bind, hp, hrest]
    rfl

theorem length_coordinates (ps : List Point) :
    (ps.flatMap fun p => [p.x.hex, p.y.hex]).length = 2 * ps.length := by
  induction ps with
  | nil => rfl
  | cons p ps ih =>
    rw [List.flatMap_cons, List.length_append, ih, List.length_cons]
    simp only [List.length_cons, List.length_nil]
    omega

theorem coordinates_injective {ps qs : List Point}
    (h : (ps.flatMap fun p => [p.x.hex, p.y.hex]) = qs.flatMap fun p => [p.x.hex, p.y.hex]) :
    ps = qs := by
  induction ps generalizing qs with
  | nil =>
    cases qs with
    | nil => rfl
    | cons q qs => cases h
  | cons p ps ih =>
    cases qs with
    | nil => cases h
    | cons q qs =>
      simp only [List.flatMap_cons, List.cons_append, List.nil_append, List.cons.injEq] at h
      obtain ⟨hx, hy, hrest⟩ := h
      have hp : p = q := by
        cases p
        cases q
        rw [Point.mk.injEq]
        exact ⟨Word256.hex_injective hx, Word256.hex_injective hy⟩
      rw [hp, ih hrest]

theorem toWire_injective {k l : PublicKey} (h : k.toWire = l.toWire) : k = l := by
  have points : k.points = l.points := coordinates_injective (congrArg Wire.pubKey h)
  have sigType := congrArg Wire.sigType h
  cases k with
  | single p =>
    cases l with
    | single q => rw [List.head_eq_of_cons_eq points]
    | threshold qs => exact absurd sigType (show singleName ≠ thresholdName by decide)
  | threshold ps =>
    cases l with
    | single q => exact absurd sigType (show thresholdName ≠ singleName by decide)
    | threshold qs => exact congrArg threshold points

theorem ofWire_toWire {k : PublicKey} (h : k.Valid) : ofWire k.toWire = .ok k := by
  have points : pointsOf k.toWire.pubKey = .ok k.points := pointsOf_coordinates h.onCurve
  have even : k.toWire.pubKey.length % 2 = 0 := by
    have length : k.toWire.pubKey.length = 2 * k.points.length := length_coordinates k.points
    omega
  rw [ofWire, if_neg (fun ne => ne rfl), if_neg (fun ne => ne even), points]
  cases k with
  | single p => rfl
  | threshold ps =>
    cases ps with
    | nil => exact absurd rfl h.points_ne_nil
    | cons p ps => rfl

namespace Wire

theorem writable_toJson (w : Wire) : w.toJson.Writable := by
  simp [toJson]

theorem decode_toJson (w : Wire) : decode w.toJson = .ok w := by
  have pubKey : Decoder.list Decoder.string (.array (w.pubKey.map fun s => .string (.plain s))) =
      .ok w.pubKey :=
    Decoder.list_map fun _ _ => rfl
  simp (disch := simp) only [decode, toJson, Form.read, Form.ofMembers_field,
    Form.ofMembers_empty, Decoder.string_string, pubKey]
  rfl

/-- A wire form nests two containers, and all it holds are strings. -/
theorem isKeepable_toJson (w : Wire) (depth : Nat) : w.toJson.isKeepable (depth + 2) = true := by
  have pubKey : ∀ texts : List String,
      Json.isKeepableItems depth (texts.map fun s => .string (.plain s)) = true := by
    intro texts
    induction texts with
    | nil => rfl
    | cons s texts ih =>
      rw [List.map_cons, Json.isKeepableItems, ih]
      rfl
  simp [toJson, Json.isKeepable, Json.isKeepableMembers, pubKey]

end Wire

@[simp] theorem writable_toJson (k : PublicKey) : k.toJson.Writable := Wire.writable_toJson k.toWire

theorem toJson_injective {k l : PublicKey} (h : k.toJson = l.toJson) : k = l :=
  toWire_injective (Decoder.injective_of_decodes Wire.decode_toJson h)

theorem decode_toJson {k : PublicKey} (h : k.Valid) : decode k.toJson = .ok k := by
  simp only [decode, toJson, Wire.decode_toJson, Decoder.ok_bind, ofWire_toWire h]

end PublicKey

namespace Signature

theorem writable_toJson (s : Signature) : s.toJson.Writable := by
  simp [toJson]

theorem decode_toJson {s : Signature} (h : s.publicKey.Valid) : decode s.toJson = .ok s := by
  simp (disch := simp) only [decode, toJson, Form.read, Form.ofMembers_field,
    Form.ofMembers_empty, PublicKey.decode_toJson h, Decoder.octets_toJson]
  rfl

end Signature

end Lineage
