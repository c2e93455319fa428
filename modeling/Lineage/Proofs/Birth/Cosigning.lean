import Lineage.Proofs.Key.Points
import Lineage.Proofs.Key.Signing
import Lineage.Proofs.Population.BirthFaults

/-!
# Parents who sign in turn

A certificate tells each parent what to sign: the first one the identity, the second one the
identity with the first signature. The check of a birth asks for signatures of just these octets.
So if two accounts that may have a child sign with their own keys, one after the other, the birth
passes and the account can be admitted. Nobody can sign after them.
-/
namespace Lineage

namespace Certificate

variable {i : Identity} {key : PrivateKey} {s : Signature}

/-- What a certificate is after a call, which leaves it as it was if it fails. -/
def after (c : Certificate) : Except BirthError Certificate → Certificate
  | .ok c' => c'
  | .error _ => c

theorem sign_unsigned (h : key.sign i.firstPayload = .ok s) (parent : Digest) :
    (unsigned i).sign parent key = .ok ⟨i, [⟨parent, s.octets⟩]⟩ := by
  simp only [unsigned, sign, h, List.nil_append]

theorem sign_once (first : Approval) (h : key.sign (i.secondPayload first.signature) = .ok s)
    (parent : Digest) :
    sign ⟨i, [first]⟩ parent key = .ok ⟨i, [first, ⟨parent, s.octets⟩]⟩ := by
  simp only [sign, h, List.cons_append, List.nil_append]

/-- A certificate that two parents have signed takes no other signature. -/
theorem sign_twice (first second : Approval) (parent : Digest) (key : PrivateKey) :
    sign ⟨i, [first, second]⟩ parent key = .error (.parentCount 3) := rfl

end Certificate

namespace Population

variable {g : GenesisPair} {law : Law.Parameters} {past : List Population} {p : Population}
  {a x y : Account} {one two : Digest} {firstKey secondKey : PrivateKey}

/-- A birth that passes the check lets the account in, unless there is one of its name. -/
theorem exists_add {parents : Digest × Digest} (passes : p.checkBirth a = .ok ())
    (named : a.parentIds = some parents) (fresh : a.id ∉ p) :
    ∃ p', p.add a = .ok (p', a.id) ∧ Admission p ⟨a, parents⟩ p' := by
  have checked : p.verifyBirth a = .ok ⟨a, parents⟩ := verifyBirth_eq_ok_iff.2 ⟨passes, named, rfl⟩
  obtain ⟨hfirst, hsecond⟩ := parents_mem_of_checkBirth passes named
  obtain ⟨p', hp⟩ := exists_insert (b := ⟨a, parents⟩) fresh hfirst hsecond
  exact ⟨p', (add_eq_insert checked).trans hp, (insert_eq_ok_iff.1 hp).2⟩

/-- What two parents sign in turn with their own keys passes the check, whoever is to be born and
whichever message carries it. All that is asked is that their secrets sign the two digests. -/
theorem cosigned_birth_passes (h : History g law past p) (hx : p.account? one = some x)
    (hy : p.account? two = some y) (ne : one ≠ two) (parity_ne : x.parity ≠ y.parity)
    (down : ¬ p.AncestorOf one two) (up : ¬ p.AncestorOf two one)
    (firstOwn : firstKey.publicKey = x.identity.key) (firstSome : firstKey.secrets ≠ [])
    (secondOwn : secondKey.publicKey = y.identity.key) (secondSome : secondKey.secrets ≠ [])
    (i : Identity) (firstSigns : ∀ k ∈ firstKey.secrets, k.Signs i.firstPayload)
    (secondSigns : ∀ s, firstKey.sign i.firstPayload = .ok s →
      ∀ k ∈ secondKey.secrets, k.Signs (i.secondPayload s.octets))
    (message : Digest) : ∃ once twice a,
      (Certificate.unsigned i).sign one firstKey = .ok once ∧
      once.sign two secondKey = .ok twice ∧
      twice.toAccount message = .ok a ∧
      a.identity = i ∧ a.parentIds = some (one, two) ∧ a.birthMessage = some message ∧
      p.checkBirth a = .ok () ∧
      (a.id ∉ p → ∃ p', p.add a = .ok (p', a.id) ∧ Admission p ⟨a, (one, two)⟩ p') ∧
      ∀ third key, twice.sign third key = .error (.parentCount 3) ∧
        twice.after (twice.sign third key) = twice := by
  obtain ⟨firstParts, firstSigned⟩ := PrivateKey.exists_signed firstSigns
  have first := PrivateKey.sign_of_signed firstSigned
  obtain ⟨secondParts, secondSigned⟩ := PrivateKey.exists_signed (secondSigns _ first)
  have second := PrivateKey.sign_of_signed secondSigned
  have firstGood := PrivateKey.verify_of_signed firstSome firstSigned
  have secondGood := PrivateKey.verify_of_signed secondSome secondSigned
  rw [firstOwn] at firstGood
  rw [secondOwn] at secondGood
  have couple : Couple p
      ⟨i, some (⟨one, firstParts.flatten⟩, ⟨two, secondParts.flatten⟩), some message⟩
      ⟨one, firstParts.flatten⟩ ⟨two, secondParts.flatten⟩ x y :=
    ⟨⟨rfl, hx, hy⟩, ne, parity_ne, down, up⟩
  have signed : checkSignatures i x.identity.key y.identity.key ⟨one, firstParts.flatten⟩
      ⟨two, secondParts.flatten⟩ = .ok () := checkSignatures_eq_ok_iff.2 ⟨firstGood, secondGood⟩
  have passes := (couple.checkBirth_eq h.pedigree).trans signed
  refine ⟨_, _, _, Certificate.sign_unsigned first one,
    Certificate.sign_once ⟨one, firstParts.flatten⟩ second two, rfl, rfl, rfl, rfl, passes,
    exists_add passes rfl, ?third⟩
  case third =>
    intro third key
    rw [Certificate.sign_twice]
    exact ⟨rfl, rfl⟩

end Population

namespace Sample

def adamSecret : Curve.Secret := ⟨.ofNat 5, by decide, by decide⟩

def eveSecret : Curve.Secret := ⟨.ofNat 1, by decide, by decide⟩

/-- What Adam and Eve sign when Abel is to be born. -/
def approvals : Approval × Approval :=
  (⟨adam.id, signature
    0x7d7ef40e661e4ce013a4370d8f3fb5aff07c8adc12af24965c00fe933b7e6628
    0x3323944303d9a0dea073eecc8143dbe5f988bc3f5d3dc85e23d1d44ee3211d86⟩,
  ⟨eve.id, signature
    0xe47e0ea0e1b98f1f99157bbeb5209bc69d1f8eee24710d0769d9865d8a59c1db
    0x47bb37d3424146d3bf3bd3fd522891f39cab092a7c59dd8f343ba38b6fc42669⟩)

theorem adam_signs :
    Curve.sign? adamSecret abel.firstPayload = some approvals.1.signature ∧
    (Point.ofSecret adamSecret).verifies abel.firstPayload approvals.1.signature = true := by
  have signed : Curve.sign? adamSecret abel.firstPayload = some approvals.1.signature := by
    decide +kernel
  exact ⟨signed, Point.verifies_ofSecret signed⟩

theorem eve_signs :
    Curve.sign? eveSecret (abel.secondPayload approvals.1.signature) =
      some approvals.2.signature ∧
    (Point.ofSecret eveSecret).verifies (abel.secondPayload approvals.1.signature)
      approvals.2.signature = true := by
  have signed : Curve.sign? eveSecret (abel.secondPayload approvals.1.signature) =
      some approvals.2.signature := by
    decide +kernel
  exact ⟨signed, Point.verifies_ofSecret signed⟩

theorem sign_adam : (PrivateKey.single adamSecret).sign abel.firstPayload =
    .ok ⟨(PrivateKey.single adamSecret).publicKey, approvals.1.signature⟩ := by
  have signed : PrivateKey.Signed abel.firstPayload (PrivateKey.single adamSecret).secrets
      [approvals.1.signature] := .cons adam_signs .nil
  rw [PrivateKey.sign_of_signed signed, List.flatten_cons, List.flatten_nil, List.append_nil]

theorem sign_eve : (PrivateKey.single eveSecret).sign (abel.secondPayload approvals.1.signature) =
    .ok ⟨(PrivateKey.single eveSecret).publicKey, approvals.2.signature⟩ := by
  have signed : PrivateKey.Signed (abel.secondPayload approvals.1.signature)
      (PrivateKey.single eveSecret).secrets [approvals.2.signature] := .cons eve_signs .nil
  rw [PrivateKey.sign_of_signed signed, List.flatten_cons, List.flatten_nil, List.append_nil]

/-- The account that Abel gets. -/
def cosigned : Account := ⟨abel, some approvals, some birth.id⟩

theorem id_cosigned_ne : cosigned.id ≠ adam.id ∧ cosigned.id ≠ eve.id := by
  decide +kernel

theorem publicKey_adam : (PrivateKey.single adamSecret).publicKey = adam.identity.key := by
  decide +kernel

theorem publicKey_eve : (PrivateKey.single eveSecret).publicKey = eve.identity.key := by
  decide +kernel

end Sample

namespace Population

open Sample

/-- Adam and Eve sign for Abel in turn, and he is admitted. -/
theorem cosigned_birth_passes_abel : ∃ past p once twice p',
    History Sample.genesis Sample.law past p ∧
    (Certificate.unsigned abel).sign adam.id (.single adamSecret) = .ok once ∧
    once.sign eve.id (.single eveSecret) = .ok twice ∧
    twice.toAccount birth.id = .ok cosigned ∧ p.checkBirth cosigned = .ok () ∧
    p.add cosigned = .ok (p', cosigned.id) := by
  obtain ⟨u, hu, -⟩ := exists_founded
  obtain ⟨p, -, hp, -⟩ := Universe.exists_of_create hu
  have history := History.found hp
  have pedigree := history.pedigree
  have first : p.IsGenesis adam.id := by rw [IsGenesis, pedigree.genesis_eq]; exact .inl rfl
  have second : p.IsGenesis eve.id := by rw [IsGenesis, pedigree.genesis_eq]; exact .inr rfl
  have firstSigns : ∀ k ∈ (PrivateKey.single adamSecret).secrets, k.Signs abel.firstPayload := by
    intro k hk
    rw [List.mem_singleton.1 hk]
    exact ⟨_, adam_signs⟩
  have secondSigns : ∀ s, (PrivateKey.single adamSecret).sign abel.firstPayload = .ok s →
      ∀ k ∈ (PrivateKey.single eveSecret).secrets, k.Signs (abel.secondPayload s.octets) := by
    intro s hs k hk
    rw [Except.ok.inj (hs.symm.trans sign_adam), List.mem_singleton.1 hk]
    exact ⟨_, eve_signs⟩
  obtain ⟨once, twice, a, hfirst, hsecond, ha, -, -, -, passes, admitted, -⟩ :=
    cosigned_birth_passes history pedigree.first_account pedigree.second_account pedigree.ids_ne
      Sample.genesis.parity_ne (pedigree.not_ancestorOf second) (pedigree.not_ancestorOf first)
      publicKey_adam (List.cons_ne_nil _ _) publicKey_eve (List.cons_ne_nil _ _) abel firstSigns
      secondSigns birth.id
  obtain rfl := Except.ok.inj (hfirst.symm.trans (Certificate.sign_unsigned sign_adam adam.id))
  obtain rfl := Except.ok.inj (hsecond.symm.trans (Certificate.sign_once _ sign_eve eve.id))
  obtain rfl : a = cosigned := Except.ok.inj (ha.symm.trans rfl)
  have fresh : cosigned.id ∉ p := by
    intro known
    obtain ⟨_, ha⟩ := mem_iff_account?.1 known
    have genesis := (founding_of_ofGenesis hp).isGenesis ha
    rw [IsGenesis, pedigree.genesis_eq] at genesis
    exact genesis.elim id_cosigned_ne.1 id_cosigned_ne.2
  obtain ⟨p', hp', -⟩ := admitted fresh
  exact ⟨[], p, _, _, p', history, hfirst, hsecond, ha, passes, hp'⟩

end Population

end Lineage
