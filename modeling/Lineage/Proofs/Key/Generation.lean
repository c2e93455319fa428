import Lineage.Genesis

/-!
# Accounts from drawn secrets

Whatever a source gives, a fresh key has the scheme that was asked for, and only a scheme without
keys has none. A search for a parity ends with a key of this parity, or says that it has given up.
A new account with such a key has not been born, so two of different parity are a genesis pair.
-/
namespace Lineage

variable {σ : Type} [Source σ] {s s' : σ} {scheme : Scheme} {parity : Parity} {k l : PrivateKey}

theorem Source.length_drawMany (n : Nat) (s : σ) : (drawMany n s).1.length = n := by
  induction n generalizing s with
  | zero => rfl
  | succ n ih => simp [drawMany, ih]

namespace PrivateKey

theorem generate_eq_error_iff {e : KeyError} : generate scheme s = .error e ↔
    scheme = .threshold 0 ∧ e = .paramsMissing "threshold key count" := by
  cases scheme with
  | single => simp [generate]
  | threshold n => cases n <;> simp [generate, eq_comm]

theorem scheme_of_generate (h : generate scheme s = .ok (k, s')) : k.scheme = scheme := by
  cases scheme with
  | single => cases h; rfl
  | threshold n =>
    cases n with
    | zero => cases h
    | succ n =>
      cases h
      exact congrArg Scheme.threshold (Source.length_drawMany (n + 1) s)

theorem of_search_eq_ok {attempts : Nat} (h : search scheme parity attempts s = .ok k) :
    k.scheme = scheme ∧ Parity.ofKey k.publicKey = parity := by
  induction attempts generalizing s with
  | zero => cases h
  | succ attempts ih =>
    rw [search] at h
    split at h
    · cases h
    · next drawn =>
      split at h
      · next found =>
        cases h
        exact ⟨scheme_of_generate drawn, found⟩
      · exact ih h

/-- A search fails only for a scheme without keys, or because it has not found the parity. -/
theorem of_search_eq_error {attempts : Nat} {e : GenesisError}
    (h : search scheme parity attempts s = .error e) :
    e = .keyGeneration Account.drawLimit ∨
      scheme = .threshold 0 ∧ e = .key (.paramsMissing "threshold key count") := by
  induction attempts generalizing s with
  | zero =>
    cases h
    exact .inl rfl
  | succ attempts ih =>
    rw [search] at h
    split at h
    · next failed =>
      cases h
      obtain ⟨none, rfl⟩ := generate_eq_error_iff.1 failed
      exact .inr ⟨none, rfl⟩
    · split at h
      · cases h
      · exact ih h

end PrivateKey

namespace Account

variable {name other : String} {a b : Account}

/-- A new account has the parity that was asked for and the public half of its key. -/
theorem of_root_eq_ok (h : root name scheme parity s = .ok (a, k)) :
    a = genesis ⟨name, "", k.publicKey⟩ ∧ a.parity = parity ∧ k.scheme = scheme := by
  simp only [root, bind, Except.bind, pure, Except.pure] at h
  split at h
  · cases h
  · next found =>
    cases h
    obtain ⟨same, right⟩ := PrivateKey.of_search_eq_ok found
    exact ⟨rfl, right, same⟩

/-- Two new accounts of different parity are a genesis pair, whatever the sources give. -/
theorem exists_genesisPair_of_root {τ : Type} [Source τ] {t : τ} {scheme' : Scheme}
    (ha : root name scheme parity s = .ok (a, k))
    (hb : root other scheme' parity.opposite t = .ok (b, l)) :
    ∃ g, GenesisPair.ofAccounts a b = .ok g ∧ g.accounts = [a, b] := by
  obtain ⟨rfl, first, -⟩ := of_root_eq_ok ha
  obtain ⟨rfl, second, -⟩ := of_root_eq_ok hb
  have differ : parity ≠ parity.opposite := by cases parity <;> decide
  rw [← second, ← first] at differ
  refine ⟨⟨_, _, rfl, rfl, differ⟩, ?_, rfl⟩
  simp only [GenesisPair.ofAccounts, dif_neg differ]
  rfl

end Account

end Lineage
