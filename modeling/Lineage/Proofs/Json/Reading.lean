import Lineage.Json.Reader
import Lineage.Proofs.Json.Printing

/-!
# Reading a text that was written

The text of a tree is read as the tree. Strings go character by character: the form of a character
is read as its number, and no character is half of a surrogate pair. A number ends where no digit,
point or exponent follows, which is so at every comma and bracket. Containers go by induction on the
tree, and the length of the text pays for the fuel. It follows that no two trees have one text.
-/
namespace Lineage.Json

open Lineage.Text (hexDigit? isDigit digitsValue)

theorem hexDigit?_digitChar {d : Nat} (h : d < 16) : hexDigit? (Nat.digitChar d) = some d := by
  revert d
  decide

section Strings

variable {cs after : List Char} {units : List Nat}

/-- A character that has an escape of one letter. -/
theorem stringUnits_letter {letter c : Char} (hletter : unescape? letter = some c)
    (h : stringUnits cs = some (units, after)) :
    stringUnits ('\\' :: letter :: cs) = some (c.toNat :: units, after) := by
  have hu : letter ≠ 'u' := by
    rintro rfl
    cases hletter
  rw [stringUnits.eq_4 letter cs (fun _ _ _ _ _ hl _ => hu hl), hletter, h]
  rfl

/-- The form of a character inside a string is read as the character. -/
theorem stringUnits_escape (c : Char) (h : stringUnits cs = some (units, after)) :
    stringUnits (escape c ++ cs) = some (c.toNat :: units, after) := by
  rw [escape]
  iterate 7
    split
    · next heq =>
      subst heq
      exact stringUnits_letter rfl h
  split
  · have hunit : hexUnit? '0' '0' (Nat.digitChar (c.toNat / 16)) (Nat.digitChar (c.toNat % 16)) =
        some c.toNat := by
      have zero : hexDigit? '0' = some 0 := rfl
      simp only [hexUnit?, zero, hexDigit?_digitChar (d := c.toNat / 16) (by omega),
        hexDigit?_digitChar (d := c.toNat % 16) (by omega)]
      simp
      omega
    simp only [List.cons_append, List.nil_append, stringUnits.eq_3, hunit, h]
    rfl
  · next hquote hbackslash _ _ _ _ _ hlow =>
    rw [List.singleton_append, stringUnits.eq_5 c cs hquote
      (fun _ _ _ _ _ hc _ => hbackslash hc) (fun _ _ hc _ => hbackslash hc), if_neg hlow, h]
    rfl

theorem stringUnits_flatMap_escape (s rest : List Char) :
    stringUnits (s.flatMap escape ++ '"' :: rest) = some (s.map Char.toNat, rest) := by
  induction s with
  | nil => exact stringUnits.eq_2 rest
  | cons c s ih =>
    rw [List.flatMap_cons, List.append_assoc, List.map_cons]
    exact stringUnits_escape c ih

end Strings

/-- No character is half of a surrogate pair. -/
theorem not_isHalf (c : Char) : isHighHalf c.toNat = false ∧ isLowHalf c.toNat = false := by
  have hvalid : c.toNat < 0xd800 ∨ 0xdfff < c.toNat ∧ c.toNat < 0x110000 := c.valid
  simp only [isHighHalf, isLowHalf, Bool.and_eq_false_iff, decide_eq_false_iff_not]
  omega

theorem joinUnits_map_toNat (s : List Char) : joinUnits (s.map Char.toNat) = some s := by
  induction s with
  | nil => rfl
  | cons c s ih =>
    obtain ⟨high, low⟩ := not_isHalf c
    cases s with
    | nil => simp [joinUnits, high, low]
    | cons d s =>
      rw [List.map_cons] at ih
      simp [joinUnits, high, low, ih]

theorem readString_escape (s : String) (rest : List Char) :
    readString (s.toList.flatMap escape ++ '"' :: rest) = some (.plain s, rest) := by
  simp only [readString, stringUnits_flatMap_escape]
  simp [joinUnits_map_toNat]

/-- What may follow a value: nothing that would make a number longer. -/
def EndsNumber (rest : List Char) : Prop :=
  ∀ c ∈ rest.head?, isDigit c = false ∧ c ≠ '.' ∧ c ≠ 'e' ∧ c ≠ 'E'

theorem endsNumber_nil : EndsNumber [] := by
  intro c hc
  cases hc

theorem isDigit_of_mem_toDigits {n : Nat} {c : Char} (h : c ∈ Nat.toDigits 10 n) :
    isDigit c = true := by
  have hd : c.isDigit = true := Nat.isDigit_of_mem_toDigits (by decide) (by decide) h
  simpa [Char.isDigit, isDigit, Char.le_def] using hd

theorem digitsValue_toDigits (n : Nat) : digitsValue (Nat.toDigits 10 n) = n := by
  calc digitsValue (Nat.toDigits 10 n)
      = Nat.ofDigitChars 10 (Nat.toDigits 10 n) 0 := Nat.ofDigitChars_eq_foldl.symm
    _ = n := Nat.ofDigitChars_ten_toDigits

theorem ne_of_isDigit {c d : Char} (hd : isDigit d = true) (hc : isDigit c = false) : d ≠ c := by
  rintro rfl
  rw [hd] at hc
  cases hc

theorem isBlank_of_isDigit {d : Char} (hd : isDigit d = true) : isBlank d = false := by
  simp [isBlank, ne_of_isDigit hd (c := ' ') rfl, ne_of_isDigit hd (c := '\n') rfl,
    ne_of_isDigit hd (c := '\t') rfl, ne_of_isDigit hd (c := '\r') rfl]

theorem exists_toDigits_eq_cons (n : Nat) :
    ∃ d ds, Nat.toDigits 10 n = d :: ds ∧ isDigit d = true := by
  cases hds : Nat.toDigits 10 n with
  | nil => exact absurd hds Nat.toDigits_ne_nil
  | cons d ds =>
    have hmem : d ∈ Nat.toDigits 10 n := hds ▸ List.mem_cons_self
    exact ⟨d, ds, rfl, isDigit_of_mem_toDigits hmem⟩

/-- Only zero is written with a zero in front. -/
theorem head?_toDigits {n : Nat} (hn : 0 < n) : (Nat.toDigits 10 n).head? ≠ some '0' := by
  induction n using Nat.strongRecOn with
  | ind n ih =>
    by_cases hlt : n < 10
    · rw [Nat.toDigits_of_lt_base hlt, List.head?_cons, ne_eq, Option.some.injEq,
        Nat.digitChar_eq_zero]
      omega
    · have front := ih (n / 10) (by omega) (by omega)
      rw [Nat.toDigits_of_base_le (by decide) (by omega)]
      cases hds : Nat.toDigits 10 (n / 10) with
      | nil => exact absurd hds Nat.toDigits_ne_nil
      | cons d ds => rwa [hds] at front

theorem spanDigits_append {ds rest : List Char} (hds : ∀ c ∈ ds, isDigit c = true)
    (hrest : EndsNumber rest) : spanDigits (ds ++ rest) = (ds, rest) := by
  have stop : rest.takeWhile isDigit = [] ∧ rest.dropWhile isDigit = rest := by
    cases rest with
    | nil => exact ⟨rfl, rfl⟩
    | cons c rest => simp [(hrest c rfl).1]
  rw [spanDigits, List.takeWhile_append_of_pos hds, List.dropWhile_append_of_pos hds, stop.1,
    stop.2, List.append_nil]

theorem readWhole_toDigits (n : Nat) {rest : List Char} (hrest : EndsNumber rest) :
    readWhole (Nat.toDigits 10 n ++ rest) = some (Nat.toDigits 10 n, rest) := by
  have span := spanDigits_append (fun c hc => isDigit_of_mem_toDigits (n := n) hc) hrest
  rw [readWhole, span]
  cases Nat.eq_zero_or_pos n with
  | inl hn => subst hn; rfl
  | inr hn =>
    have hhead := head?_toDigits hn
    cases hds : Nat.toDigits 10 n with
    | nil => exact absurd hds Nat.toDigits_ne_nil
    | cons d ds =>
      rw [hds, List.head?_cons, ne_eq, Option.some.injEq] at hhead
      simp [hhead]

theorem readFraction_of_endsNumber {rest : List Char} (h : EndsNumber rest) :
    readFraction rest = some ([], rest) := by
  cases rest with
  | nil => rfl
  | cons c rest =>
    have hc := (h c rfl).2.1
    rw [readFraction.eq_2]
    rintro _ heq
    exact hc (List.cons.inj heq).1

theorem readExponent_of_endsNumber {rest : List Char} (h : EndsNumber rest) :
    readExponent rest = some (none, rest) := by
  cases rest with
  | nil => rfl
  | cons c rest =>
    obtain ⟨-, -, he, hE⟩ := h c rfl
    exact if_neg (not_or.2 ⟨he, hE⟩)

theorem readNumber_toDigits (n : Nat) {rest : List Char} (hrest : EndsNumber rest) :
    readNumber (Nat.toDigits 10 n ++ rest) = some (.number n, rest) := by
  have whole := readWhole_toDigits n hrest
  have value := digitsValue_toDigits n
  obtain ⟨d, ds, hds, hd⟩ := exists_toDigits_eq_cons n
  rw [hds, List.cons_append] at whole
  rw [hds] at value
  rw [hds, List.cons_append]
  simp [readNumber, ne_of_isDigit hd (c := '-') rfl, whole, readFraction_of_endsNumber hrest,
    readExponent_of_endsNumber hrest, value]

/-- The trees that have a text: no number with a fraction or an exponent, no unpaired string and no
cut is met in them. -/
inductive Writable : Json → Prop
  | null : Writable .null
  | bool (b : Bool) : Writable (.bool b)
  | number (n : Nat) : Writable (.number n)
  | string (s : String) : Writable (.string (.plain s))
  | array {items : List Json} (values : ∀ v ∈ items, Writable v) : Writable (.array items)
  | object {members : List (Content × Json)} (names : ∀ e ∈ members, ∃ s, e.1 = .plain s)
      (values : ∀ e ∈ members, Writable e.2) : Writable (.object members)

theorem skipBlanks_cons {c : Char} (h : isBlank c = false) (cs : List Char) :
    skipBlanks (c :: cs) = c :: cs :=
  List.dropWhile_cons_of_neg (by simp [h])

/-- A text starts with neither a blank nor the bracket that ends an array. -/
theorem Writable.head {j : Json} (h : Writable j) :
    ∃ c cs, j.render = c :: cs ∧ isBlank c = false ∧ c ≠ ']' := by
  cases h with
  | null => exact ⟨'n', _, rfl, rfl, by decide⟩
  | bool b =>
    cases b with
    | true => exact ⟨'t', _, rfl, rfl, by decide⟩
    | false => exact ⟨'f', _, rfl, rfl, by decide⟩
  | number n =>
    obtain ⟨d, ds, hds, hd⟩ := exists_toDigits_eq_cons n
    exact ⟨d, ds, hds, isBlank_of_isDigit hd, ne_of_isDigit hd rfl⟩
  | string s => exact ⟨'"', _, rfl, rfl, by decide⟩
  | array _ => exact ⟨'[', _, rfl, rfl, by decide⟩
  | object _ _ => exact ⟨'\x7b', _, rfl, rfl, by decide⟩

theorem renderItems_cons_cons (v w : Json) (items : List Json) :
    renderItems (v :: w :: items) = v.render ++ ',' :: renderItems (w :: items) := rfl

theorem renderMembers_cons_cons (k : Content) (v : Json) (e : Content × Json)
    (members : List (Content × Json)) :
    renderMembers ((k, v) :: e :: members) =
      renderContent k ++ ':' :: v.render ++ ',' :: renderMembers (e :: members) := rfl

theorem endsNumber_cons {c : Char} (h : isDigit c = false ∧ c ≠ '.' ∧ c ≠ 'e' ∧ c ≠ 'E')
    (rest : List Char) : EndsNumber (c :: rest) := by
  intro d hd
  cases hd
  exact h

section Containers

variable {read : List Char → Json × Option (List Char)} {bound fuel : Nat}

/-- The values of an array, when each value with a text below a bound is read from it. -/
theorem readItems_render {items : List Json} (hne : items ≠ [])
    (hread : ∀ v ∈ items, v.render.length < bound →
      ∀ rest, EndsNumber rest → read (v.render ++ rest) = (v, some rest))
    (hbound : (renderItems items).length ≤ bound) (hfuel : (renderItems items).length ≤ fuel)
    (rest : List Char) : readItems read fuel (renderItems items ++ rest) = (items, some rest) := by
  induction items generalizing fuel with
  | nil => exact absurd rfl hne
  | cons v items ih =>
    cases items with
    | nil =>
      have htext : renderItems [v] = v.render ++ [']'] := rfl
      simp only [htext, List.length_append, List.length_singleton] at hbound hfuel
      obtain ⟨fuel, rfl⟩ : ∃ n, fuel = n + 1 := ⟨fuel - 1, by omega⟩
      have hv := hread v List.mem_cons_self (by omega) (']' :: rest)
        (endsNumber_cons (by decide) rest)
      rw [htext, List.append_assoc, List.singleton_append, readItems, hv]
      simp only [skipBlanks_cons (show isBlank ']' = false from rfl)]
    | cons w items =>
      simp only [renderItems_cons_cons, List.length_append, List.length_cons] at hbound hfuel
      obtain ⟨fuel, rfl⟩ : ∃ n, fuel = n + 1 := ⟨fuel - 1, by omega⟩
      have hv := hread v List.mem_cons_self (by omega) (',' :: (renderItems (w :: items) ++ rest))
        (endsNumber_cons (by decide) _)
      have hrest : readItems read fuel (renderItems (w :: items) ++ rest) =
          (w :: items, some rest) :=
        ih (List.cons_ne_nil w items) (fun x hx => hread x (List.mem_cons_of_mem v hx)) (by omega)
          (by omega)
      rw [renderItems_cons_cons, List.append_assoc, List.cons_append, readItems, hv]
      simp only [skipBlanks_cons (show isBlank ',' = false from rfl), hrest]

/-- The members of an object, when each value with a text below a bound is read from it. -/
theorem readMembers_render {members : List (Content × Json)} (hne : members ≠ [])
    (names : ∀ e ∈ members, ∃ s, e.1 = .plain s)
    (hread : ∀ e ∈ members, e.2.render.length < bound →
      ∀ rest, EndsNumber rest → read (e.2.render ++ rest) = (e.2, some rest))
    (hbound : (renderMembers members).length ≤ bound)
    (hfuel : (renderMembers members).length ≤ fuel) (rest : List Char) :
    readMembers read fuel (renderMembers members ++ rest) = (members, some rest) := by
  induction members generalizing fuel with
  | nil => exact absurd rfl hne
  | cons e members ih =>
    obtain ⟨k, v⟩ := e
    obtain ⟨s, rfl⟩ : ∃ s, k = .plain s := names (k, v) List.mem_cons_self
    have quote : isBlank '"' = false := rfl
    have colon : isBlank ':' = false := rfl
    cases members with
    | nil =>
      have htext : renderMembers [(.plain s, v)] ++ rest =
          '"' :: (s.toList.flatMap escape ++ '"' :: ':' :: (v.render ++ '\x7d' :: rest)) := by
        simp [renderMembers, renderContent, renderString]
      simp only [renderMembers, List.length_append, List.length_cons] at hbound hfuel
      obtain ⟨fuel, rfl⟩ : ∃ n, fuel = n + 1 := ⟨fuel - 1, by omega⟩
      have hv := hread _ List.mem_cons_self (show v.render.length < bound by omega) ('\x7d' :: rest)
        (endsNumber_cons (by decide) rest)
      rw [htext, readMembers]
      simp only [skipBlanks_cons quote, readString_escape, skipBlanks_cons colon, hv,
        skipBlanks_cons (show isBlank '\x7d' = false from rfl)]
    | cons f members =>
      have htext : renderMembers ((.plain s, v) :: f :: members) ++ rest =
          '"' :: (s.toList.flatMap escape ++
            '"' :: ':' :: (v.render ++ ',' :: (renderMembers (f :: members) ++ rest))) := by
        rw [renderMembers_cons_cons]
        simp [renderContent, renderString]
      simp only [renderMembers_cons_cons, List.length_append, List.length_cons] at hbound hfuel
      obtain ⟨fuel, rfl⟩ : ∃ n, fuel = n + 1 := ⟨fuel - 1, by omega⟩
      have hv := hread _ List.mem_cons_self (show v.render.length < bound by omega)
        (',' :: (renderMembers (f :: members) ++ rest)) (endsNumber_cons (by decide) _)
      have hrest : readMembers read fuel (renderMembers (f :: members) ++ rest) =
          (f :: members, some rest) :=
        ih (List.cons_ne_nil f members) (fun x hx => names x (List.mem_cons_of_mem _ hx))
          (fun x hx => hread x (List.mem_cons_of_mem _ hx)) (by omega) (by omega)
      rw [htext, readMembers]
      simp only [skipBlanks_cons quote, readString_escape, skipBlanks_cons colon, hv,
        skipBlanks_cons (show isBlank ',' = false from rfl), hrest]

end Containers

theorem read_array_cons {c : Char} (hblank : isBlank c = false) (hc : c ≠ ']') (fuel : Nat)
    (cs : List Char) :
    read (fuel + 1) ('[' :: c :: cs) =
      (.array (readItems (read fuel) fuel (c :: cs)).1,
        (readItems (read fuel) fuel (c :: cs)).2) := by
  rw [read, skipBlanks_cons rfl]
  simp [skipBlanks_cons hblank, hc]

theorem read_object_quote (fuel : Nat) (cs : List Char) :
    read (fuel + 1) ('\x7b' :: '"' :: cs) =
      (.object (readMembers (read fuel) fuel ('"' :: cs)).1,
        (readMembers (read fuel) fuel ('"' :: cs)).2) := by
  rw [read, skipBlanks_cons rfl]
  rfl

/-- The text of an object, when every value with a shorter text is read from it. -/
theorem read_object {members : List (Content × Json)} (names : ∀ e ∈ members, ∃ s, e.1 = .plain s)
    {fuel : Nat} (hread : ∀ e ∈ members, e.2.render.length ≤ fuel →
      ∀ rest, EndsNumber rest → read (fuel + 1) (e.2.render ++ rest) = (e.2, some rest))
    (hfuel : (Json.object members).render.length ≤ fuel + 1) (rest : List Char) :
    read (fuel + 2) ((Json.object members).render ++ rest) = (.object members, some rest) := by
  rw [render, List.length_cons] at hfuel
  cases members with
  | nil => rfl
  | cons e members =>
    have hlen : (renderMembers (e :: members)).length ≤ fuel + 1 := by omega
    have hmembers :
        readMembers (read (fuel + 1)) (fuel + 1) (renderMembers (e :: members) ++ rest) =
          (e :: members, some rest) :=
      readMembers_render (List.cons_ne_nil e members) names
        (fun f hf hf' => hread f hf (Nat.le_of_lt_succ hf')) hlen hlen rest
    obtain ⟨s, hs⟩ := names e List.mem_cons_self
    obtain ⟨cs', hcs'⟩ : ∃ cs', renderMembers (e :: members) = '"' :: cs' := by
      obtain ⟨k, v⟩ := e
      subst hs
      cases members with
      | nil => exact ⟨_, rfl⟩
      | cons w items => exact ⟨_, rfl⟩
    rw [hcs', List.cons_append] at hmembers
    rw [render, hcs', List.cons_append, List.cons_append, read_object_quote, hmembers]

/-- Reading the text of a tree gives the tree, and what follows the text. -/
theorem Writable.read_render {j : Json} (h : Writable j) {fuel : Nat}
    (hfuel : j.render.length ≤ fuel) {rest : List Char} (hrest : EndsNumber rest) :
    read (fuel + 1) (j.render ++ rest) = (j, some rest) := by
  induction h generalizing fuel rest with
  | null => rfl
  | bool b => cases b <;> rfl
  | number n =>
    have hread := readNumber_toDigits n hrest
    obtain ⟨d, ds, hds, hd⟩ := exists_toDigits_eq_cons n
    rw [hds, List.cons_append] at hread
    rw [render, hds, List.cons_append, read, skipBlanks_cons (isBlank_of_isDigit hd)]
    simp [ne_of_isDigit hd (c := 'n') rfl, ne_of_isDigit hd (c := 't') rfl,
      ne_of_isDigit hd (c := 'f') rfl, ne_of_isDigit hd (c := '"') rfl,
      ne_of_isDigit hd (c := '[') rfl, ne_of_isDigit hd (c := '\x7b') rfl, hread]
  | string s =>
    have htext : (Json.string (.plain s)).render ++ rest =
        '"' :: (s.toList.flatMap escape ++ '"' :: rest) := by
      simp [render, renderContent, renderString]
    rw [htext, read, skipBlanks_cons rfl]
    simp only [readString_escape]
  | @array items values ih =>
    rw [render, List.length_cons] at hfuel
    obtain ⟨fuel, rfl⟩ : ∃ n, fuel = n + 1 := ⟨fuel - 1, by omega⟩
    cases items with
    | nil => rfl
    | cons v items =>
      have hlen : (renderItems (v :: items)).length ≤ fuel + 1 := by omega
      have hitems : readItems (read (fuel + 1)) (fuel + 1) (renderItems (v :: items) ++ rest) =
          (v :: items, some rest) :=
        readItems_render (List.cons_ne_nil v items)
          (fun w hw hw' _ hrest => ih w hw (Nat.le_of_lt_succ hw') hrest) hlen hlen rest
      obtain ⟨c, cs, hcs, hblank, hc⟩ := (values v List.mem_cons_self).head
      obtain ⟨cs', hcs'⟩ : ∃ cs', renderItems (v :: items) = c :: cs' := by
        cases items with
        | nil => exact ⟨_, by rw [renderItems, hcs]; rfl⟩
        | cons w items => exact ⟨_, by rw [renderItems_cons_cons, hcs]; rfl⟩
      rw [hcs', List.cons_append] at hitems
      rw [render, hcs', List.cons_append, List.cons_append, read_array_cons hblank hc, hitems]
  | @object members names values ih =>
    have pos : 1 ≤ (Json.object members).render.length := by simp [render]
    obtain ⟨fuel, rfl⟩ : ∃ n, fuel = n + 1 := ⟨fuel - 1, by omega⟩
    exact read_object names (fun e he hfuel _ hrest => ih e he hfuel hrest) hfuel rest

/-- The closing brace ends the text of an object, so it may go on in any way. -/
theorem Writable.read_render_object {members : List (Content × Json)}
    (h : Writable (.object members)) {fuel : Nat}
    (hfuel : (Json.object members).render.length ≤ fuel + 1) (rest : List Char) :
    read (fuel + 2) ((Json.object members).render ++ rest) = (.object members, some rest) := by
  cases h with
  | object names values =>
    exact read_object names (fun e he hfuel _ hrest => (values e he).read_render hfuel hrest) hfuel
      rest

/-- The text of an object does not begin the text of another one. -/
theorem Writable.eq_of_prefix {ms ns : List (Content × Json)} (hm : Writable (.object ms))
    (hn : Writable (.object ns)) (h : (Json.object ms).render <+: (Json.object ns).render) :
    ms = ns := by
  obtain ⟨rest, htext⟩ := h
  have shorter : (Json.object ms).render.length ≤ (Json.object ns).render.length := by
    rw [← htext, List.length_append]
    omega
  have first := hm.read_render_object (Nat.le_succ_of_le shorter) rest
  have second := hn.read_render_object (Nat.le_succ _) []
  rw [htext] at first
  rw [List.append_nil, first] at second
  exact Json.object.inj (Prod.mk.inj second).1

theorem Document.ofText_text {j : Json} (h : Writable j) : Document.ofText j.text = ⟨j, true⟩ := by
  have hread := h.read_render (Nat.le_refl _) endsNumber_nil
  rw [List.append_nil] at hread
  simp only [Document.ofText, text, String.toList_ofList, hread]
  rfl

/-- A tree is determined by the octets of its text. -/
theorem Writable.eq_of_octets_eq {j k : Json} (hj : Writable j) (hk : Writable k)
    (h : j.octets = k.octets) : j = k := by
  rw [octets_eq, octets_eq] at h
  have hdoc := Document.ofText_text hj
  rw [text, Octets.ofText_injective h, ← text, Document.ofText_text hk] at hdoc
  exact (congrArg Document.value hdoc).symm

/-- The octets of an object are told apart from whatever follows them. -/
theorem Writable.octets_append_injective {ms ns : List (Content × Json)}
    (hm : Writable (.object ms)) (hn : Writable (.object ns)) {b b' : Octets}
    (h : (Json.object ms).octets ++ b = (Json.object ns).octets ++ b') : ms = ns ∧ b = b' := by
  have members : ms = ns := by
    rw [octets_eq, octets_eq] at h
    rcases Octets.prefix_or_prefix_of_ofText_append h with front | front
    · exact hm.eq_of_prefix hn front
    · exact (hn.eq_of_prefix hm front).symm
  subst members
  exact ⟨rfl, List.append_cancel_left h⟩

end Lineage.Json
