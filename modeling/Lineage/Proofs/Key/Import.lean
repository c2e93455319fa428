import Lineage.Proofs.Key.Points
import Lineage.Proofs.Key.Signing
import Lineage.Proofs.Outcomes

/-!
# Keys from secret words

A key is made from words that spell secrets. They are as many as the scheme has keys, which is one
at least, and all of them are in range; what fails is reported in the order of the checks. A key
that is made so gives the words back, and its public half has the same scheme and in the place of
each word the multiple of the generator by it.
-/
namespace Lineage

open Curve (Secret)

/-- A word that is not zero and below the order of the generator. -/
def Word256.IsScalar (w : Word256) : Prop := 0 < w.toNat ∧ w.toNat < Curve.groupOrder

instance (w : Word256) : Decidable w.IsScalar := by unfold Word256.IsScalar; infer_instance

namespace Curve.Secret

variable {w : Word256}

theorem isScalar (k : Secret) : k.word.IsScalar := ⟨k.pos, k.lt_groupOrder⟩

@[simp] theorem ofWord?_word (k : Secret) : ofWord? k.word = some k := dif_pos k.isScalar

theorem ofWord?_of_not_isScalar (h : ¬ w.IsScalar) : ofWord? w = none := dif_neg h

end Curve.Secret

namespace PrivateKey

variable {scheme : Scheme} {words : List Word256}

theorem secretsOf_words (ks : List Secret) : secretsOf (ks.map (·.word)) = .ok ks := by
  induction ks with
  | nil => rfl
  | cons k ks ih =>
    simp only [List.map_cons, secretsOf, Secret.ofWord?_word, ih]
    rfl

theorem exists_words (h : ∀ w ∈ words, w.IsScalar) :
    ∃ ks : List Secret, ks.map (·.word) = words := by
  refine ⟨words.attach.map fun w => ⟨w.1, (h w.1 w.2).1, (h w.1 w.2).2⟩, ?_⟩
  rw [List.map_map]
  exact List.attach_map_subtype_val words

theorem secretsOf_of_not_isScalar {w : Word256} (hw : w ∈ words) (bad : ¬ w.IsScalar) :
    secretsOf words = .error .outOfRange := by
  induction words with
  | nil => cases hw
  | cons v rest ih =>
    by_cases first : v.IsScalar
    · have later : w ∈ rest := by
        rcases List.mem_cons.1 hw with rfl | later
        · exact absurd first bad
        · exact later
      let k : Secret := ⟨v, first.1, first.2⟩
      have hv : Secret.ofWord? v = some k := Secret.ofWord?_word k
      simp only [secretsOf, hv, ih later]
      rfl
    · simp only [secretsOf, Secret.ofWord?_of_not_isScalar first]

/-- As many words as the scheme has keys, one at least, and all of them in range. -/
structure Importable (scheme : Scheme) (words : List Word256) : Prop where
  count : words.length = scheme.keyCount
  pos : 1 ≤ scheme.keyCount
  inRange : ∀ w ∈ words, w.IsScalar

/-- Why words make no key. They are counted before any of them is looked at, and that the scheme is
one without keys is noticed last. -/
inductive ImportFault (scheme : Scheme) (words : List Word256) : KeyError → Prop where
  | miscounted (count : words.length ≠ scheme.keyCount) :
      ImportFault scheme words (.keyCountMismatch scheme.keyCount words.length)
  | outOfRange (count : words.length = scheme.keyCount) {w : Word256} (hw : w ∈ words)
      (bad : ¬ w.IsScalar) : ImportFault scheme words .outOfRange
  | keyless (count : words.length = scheme.keyCount) (inRange : ∀ w ∈ words, w.IsScalar)
      (none : scheme.keyCount = 0) :
      ImportFault scheme words (.paramsMissing "threshold key count")

theorem importable_or_fault (scheme : Scheme) (words : List Word256) :
    Importable scheme words ∨ ∃ e, ImportFault scheme words e := by
  by_cases count : words.length = scheme.keyCount
  · by_cases inRange : ∀ w ∈ words, w.IsScalar
    · rcases Nat.eq_zero_or_pos scheme.keyCount with none | pos
      · exact .inr ⟨_, .keyless count inRange none⟩
      · exact .inl ⟨count, pos, inRange⟩
    · push Not at inRange
      obtain ⟨w, hw, bad⟩ := inRange
      exact .inr ⟨_, .outOfRange count hw bad⟩
  · exact .inr ⟨_, .miscounted count⟩

/-- The key of a scheme with given secrets. -/
theorem Importable.exists_key (h : Importable scheme words) :
    ∃ key, ofSecretWords scheme words = .ok key ∧ key.scheme = scheme ∧
      key.toSecretWords = words := by
  obtain ⟨ks, rfl⟩ := exists_words h.inRange
  have count : ks.length = scheme.keyCount := by rw [← h.count, List.length_map]
  rw [ofSecretWords, if_neg (not_not.2 h.count), secretsOf_words]
  cases scheme with
  | single =>
    obtain ⟨k, rfl⟩ := List.length_eq_one_iff.1 count
    exact ⟨.single k, rfl, rfl, rfl⟩
  | threshold n =>
    obtain ⟨n, rfl⟩ := Nat.exists_eq_add_of_le' h.pos
    exact ⟨.threshold ks, rfl, congrArg Scheme.threshold count, rfl⟩

theorem ImportFault.ofSecretWords_eq {e : KeyError} (h : ImportFault scheme words e) :
    ofSecretWords scheme words = .error e := by
  cases h with
  | miscounted count => exact if_pos count
  | outOfRange count hw bad =>
    rw [ofSecretWords, if_neg (not_not.2 count), secretsOf_of_not_isScalar hw bad]
    rfl
  | keyless count inRange none =>
    cases scheme with
    | single => cases none
    | threshold n =>
      obtain rfl : n = 0 := none
      obtain rfl := List.length_eq_zero_iff.1 count
      rfl

theorem scheme_publicKey (key : PrivateKey) : key.publicKey.scheme = key.scheme := by
  cases key with
  | single k => rfl
  | threshold ks => exact congrArg Scheme.threshold (List.length_map _)

/-- The points are the multiples of the generator by the words, in their order. -/
theorem forall₂_isMultiple (key : PrivateKey) :
    List.Forall₂ Point.IsMultiple key.publicKey.points key.toSecretWords := by
  rw [points_publicKey, toSecretWords, List.forall₂_map_left_iff, List.forall₂_map_right_iff]
  exact List.forall₂_same.2 fun k _ => isMultiple_ofSecret k

/-- Words make a key just if they are importable, and what is reported otherwise is the first fault.
The key gives the words back, and its points are the multiples of the generator by them. -/
theorem import_exact (scheme : Scheme) (words : List Word256) :
    ((∃ key, ofSecretWords scheme words = .ok key) ↔ Importable scheme words) ∧
    (∀ e, ofSecretWords scheme words = .error e ↔ ImportFault scheme words e) ∧
    ∀ key, ofSecretWords scheme words = .ok key →
      key.scheme = scheme ∧ key.toSecretWords = words ∧
      ∃ half, key.derivePublic = .ok half ∧ half.scheme = scheme ∧
        List.Forall₂ Point.IsMultiple half.points words := by
  obtain ⟨succeeds, fails⟩ := exists_iff_of_cover (importable_or_fault scheme words)
    (fun h => h.exists_key.imp fun _ => And.left) fun _ => ImportFault.ofSecretWords_eq
  refine ⟨succeeds, fails, ?_⟩
  intro key made
  obtain ⟨key', made', hscheme, hwords⟩ := (succeeds.1 ⟨key, made⟩).exists_key
  obtain rfl : key = key' := Except.ok.inj (made.symm.trans made')
  refine ⟨hscheme, hwords, key.publicKey, derivePublic_eq key, ?_, ?_⟩
  · rw [scheme_publicKey, hscheme]
  · rw [← hwords]
    exact forall₂_isMultiple key

/-- Two words make a key for two. They make none for one, nor with a zero among them, and nothing
makes a key for none. -/
theorem import_exact_two :
    (∃ key, ofSecretWords (.threshold 2) [.ofNat 5, .ofNat 1] = .ok key ∧
      key.toSecretWords = [.ofNat 5, .ofNat 1]) ∧
    ofSecretWords .single [.ofNat 5, .ofNat 0] = .error (.keyCountMismatch 1 2) ∧
    ofSecretWords (.threshold 2) [.ofNat 5, .ofNat 0] = .error .outOfRange ∧
    ofSecretWords (.threshold 0) [] = .error (.paramsMissing "threshold key count") := by
  have inRange : ∀ w ∈ [Word256.ofNat 5, .ofNat 1], w.IsScalar := by decide
  have zero : ¬ (Word256.ofNat 0).IsScalar := by decide
  refine ⟨?made, ?miscounted, ?outOfRange, ?keyless⟩
  case made =>
    obtain ⟨key, made⟩ := (import_exact (.threshold 2) _).1.2 ⟨rfl, by decide, inRange⟩
    exact ⟨key, made, ((import_exact _ _).2.2 key made).2.1⟩
  case miscounted => exact ((import_exact _ _).2.1 _).2 (.miscounted (by decide))
  case outOfRange =>
    have second : Word256.ofNat 0 ∈ [Word256.ofNat 5, .ofNat 0] :=
      List.mem_cons_of_mem _ List.mem_cons_self
    exact ((import_exact _ _).2.1 _).2 (.outOfRange rfl second zero)
  case keyless =>
    exact ((import_exact _ _).2.1 _).2 (.keyless rfl (fun _ hw => absurd hw List.not_mem_nil) rfl)

end PrivateKey

end Lineage
