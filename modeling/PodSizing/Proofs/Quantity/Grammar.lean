import PodSizing.Proofs.Quantity.Overflow

/-!
# The grammar of quantities

A quantity is a sign, digits around at most one point, and a suffix: a prefix for a power of a thousand,
one for a power of 1024, or an exponent of ten. A text is split into just the parts that it is written
with, and a suffix names the scale that it is written for.
-/
namespace PodSizing.Quantity
open Text (SpellsSign SpellsInteger)

inductive SpellsNumber : List Char → List Char → List Char → Prop
  | plain {whole : List Char} (hne : whole ≠ []) (hdigits : ∀ c ∈ whole, c.isDigit = true) :
      SpellsNumber whole whole []
  | pointed {whole fraction : List Char} (hne : whole ++ fraction ≠ [])
      (hdigits : ∀ c ∈ whole ++ fraction, c.isDigit = true) :
      SpellsNumber (whole ++ '.' :: fraction) whole fraction

inductive Parts.Spells (p : Parts) : List Char → Prop
  | intro {sign number : List Char} (hsign : SpellsSign sign p.negative)
      (hnumber : SpellsNumber number p.whole p.fraction) :
      p.Spells (sign ++ (number ++ p.suffix))

def thousandSuffixes : List (List Char) :=
  [['n'], ['u'], ['m'], [], ['k'], ['M'], ['G'], ['T'], ['P'], ['E']]

def binaryLetters : List Char := ['K', 'M', 'G', 'T', 'P', 'E']

inductive SpellsScale : List Char → Scale → Prop
  | thousands {i : Nat} {suffix : List Char} (h : thousandSuffixes[i]? = some suffix) :
      SpellsScale suffix ⟨3 * i - 9, 0⟩
  | binary {i : Nat} {letter : Char} (h : binaryLetters[i]? = some letter) :
      SpellsScale [letter, 'i'] ⟨0, 10 * (i + 1)⟩
  | exponent {mark : Char} {digits : List Char} {ten : Int} (hmark : mark = 'e' ∨ mark = 'E')
      (hten : SpellsInteger digits ten) : SpellsScale (mark :: digits) ⟨ten, 0⟩

/-- A text is written with these parts, for this scale. -/
structure Written (cs : List Char) (p : Parts) (scale : Scale) : Prop where
  parts : p.Spells cs
  suffix : SpellsScale p.suffix scale

/-- Neither the digits nor the exponent are more than is read. -/
structure Admitted (cs : List Char) (p : Parts) (scale : Scale) : Prop
    extends Written cs p scale where
  digits : p.digitCount ≤ maxDigits
  exponent : scale.ten.natAbs ≤ maxExponent

namespace SpellsNumber
variable {number whole fraction : List Char}

theorem isDigit (h : SpellsNumber number whole fraction) :
    ∀ c ∈ whole ++ fraction, c.isDigit = true := by
  cases h with
  | plain hne hdigits => rwa [List.append_nil]
  | pointed hne hdigits => exact hdigits

theorem ne_nil (h : SpellsNumber number whole fraction) : whole ++ fraction ≠ [] := by
  cases h with
  | plain hne hdigits => rwa [List.append_nil]
  | pointed hne hdigits => exact hne

theorem isNumberChar (h : SpellsNumber number whole fraction) :
    ∀ c ∈ number, isNumberChar c = true := by
  intro c hc
  by_cases hpoint : c = '.'
  · simp [Quantity.isNumberChar, hpoint]
  · have hdigit : c ∈ whole ++ fraction := by
      cases h with
      | plain hne hdigits => rwa [List.append_nil]
      | pointed hne hdigits => simpa [hpoint] using hc
    simp [Quantity.isNumberChar, h.isDigit c hdigit]

theorem number_ne_nil (h : SpellsNumber number whole fraction) : number ≠ [] := by
  cases h with
  | plain hne hdigits => exact hne
  | pointed hne hdigits => simp

theorem split (h : SpellsNumber number whole fraction) :
    number.takeWhile (· != '.') = whole ∧ (number.dropWhile (· != '.')).tail = fraction := by
  have hwhole : ∀ c ∈ whole, (c != '.') = true := fun c hc => by
    simpa using Text.ne_of_isDigit (h.isDigit c (List.mem_append_left _ hc)) rfl
  cases h with
  | plain hne hdigits =>
    constructor
    · exact List.takeWhile_eq_self_iff.2 hwhole
    · rw [List.dropWhile_eq_nil_iff.2 hwhole]
      rfl
  | pointed hne hdigits =>
    constructor
    · rw [List.takeWhile_append_of_pos hwhole]
      simp
    · rw [List.dropWhile_append_of_pos hwhole]
      simp

end SpellsNumber

theorem splitSign_spells {sign rest : List Char} {negative : Bool}
    (h : SpellsSign sign negative) (hrest : rest.head?.all isNumberChar = true) :
    splitSign (sign ++ rest) = (negative, rest) := by
  cases h with
  | plus => rfl
  | minus => rfl
  | none =>
    cases rest with
    | nil => rfl
    | cons c cs =>
      have hc : isNumberChar c = true := hrest
      have hplus : c ≠ '+' := by
        rintro rfl
        exact absurd hc (by decide)
      have hminus : c ≠ '-' := by
        rintro rfl
        exact absurd hc (by decide)
      simp [splitSign, hplus, hminus]

theorem SpellsScale.head {suffix : List Char} {scale : Scale} (h : SpellsScale suffix scale) :
    ∀ c ∈ suffix.head?, isNumberChar c = false := by
  cases h with
  | thousands h =>
    have hall : thousandSuffixes.all (·.head?.all fun c => !isNumberChar c) = true := by decide
    have hsuffix := List.all_eq_true.1 hall suffix (List.mem_of_getElem? h)
    intro c hc
    simpa [Option.mem_def.1 hc] using hsuffix
  | @binary _ letter h =>
    have hall : binaryLetters.all (fun c => !isNumberChar c) = true := by decide
    have hletter := List.all_eq_true.1 hall letter (List.mem_of_getElem? h)
    simpa using hletter
  | exponent hmark hten =>
    rcases hmark with rfl | rfl <;> simp [isNumberChar]

/-- A text is split into the parts that it is written with, if the suffix does not go on with the number. -/
theorem Parts.Spells.split_eq {p : Parts} {cs : List Char} (h : p.Spells cs)
    (hsuffix : ∀ c ∈ p.suffix.head?, isNumberChar c = false) : split cs = p := by
  cases h with
  | @intro sign number hsign hnumber =>
    have hrest : (number ++ p.suffix).head?.all isNumberChar = true := by
      cases number with
      | nil => exact absurd rfl hnumber.number_ne_nil
      | cons c cs => exact hnumber.isNumberChar c List.mem_cons_self
    have htake : (number ++ p.suffix).takeWhile isNumberChar = number := by
      rw [List.takeWhile_append_of_pos hnumber.isNumberChar]
      cases hp : p.suffix with
      | nil => simp
      | cons c cs => simp [hsuffix c (by simp [hp])]
    have hdrop : (number ++ p.suffix).dropWhile isNumberChar = p.suffix := by
      rw [List.dropWhile_append_of_pos hnumber.isNumberChar]
      cases hp : p.suffix with
      | nil => rfl
      | cons c cs => simp [hsuffix c (by simp [hp])]
    obtain ⟨hwhole, hfraction⟩ := hnumber.split
    simp only [split, splitSign_spells hsign hrest, htake, hdrop, hwhole, hfraction]

theorem Parts.Spells.isNumber {p : Parts} {cs : List Char} (h : p.Spells cs) :
    p.isNumber = true := by
  cases h with
  | intro hsign hnumber =>
    have hempty : p.whole ≠ [] ∨ p.fraction ≠ [] :=
      not_and_or.1 fun hboth => hnumber.ne_nil (List.append_eq_nil_iff.2 hboth)
    have hpoint : '.' ∉ p.fraction := fun hmem =>
      absurd (hnumber.isDigit '.' (List.mem_append_right _ hmem)) (by decide)
    simpa [Parts.isNumber, hpoint] using hempty

theorem spellsSign_splitSign (cs : List Char) :
    ∃ sign, SpellsSign sign (splitSign cs).1 ∧ cs = sign ++ (splitSign cs).2 := by
  unfold splitSign
  split
  · exact ⟨['-'], .minus, rfl⟩
  · exact ⟨['+'], .plus, rfl⟩
  · exact ⟨[], .none, rfl⟩

theorem spellsNumber_split {number : List Char}
    (hne : number.takeWhile (· != '.') ++ (number.dropWhile (· != '.')).tail ≠ [])
    (hdigits : ∀ c ∈ number.takeWhile (· != '.') ++ (number.dropWhile (· != '.')).tail,
      c.isDigit = true) :
    SpellsNumber number (number.takeWhile (· != '.')) (number.dropWhile (· != '.')).tail := by
  have hnumber := List.takeWhile_append_dropWhile (p := (· != '.')) (l := number)
  cases hdrop : number.dropWhile (· != '.') with
  | nil =>
    rw [hdrop, List.append_nil] at hnumber
    rw [hdrop, List.tail_nil, List.append_nil, hnumber] at hne hdigits
    rw [hnumber]
    exact .plain hne hdigits
  | cons point fraction =>
    have hpoint : point = '.' := by
      have hhead := List.head?_dropWhile_not (· != '.') number
      simpa [hdrop] using hhead
    subst hpoint
    rw [hdrop] at hnumber hne hdigits
    rw [List.tail_cons] at hne hdigits ⊢
    have hpointed := SpellsNumber.pointed hne hdigits
    rwa [hnumber] at hpointed

/-- A text that begins with a number is written with the parts that it is split into. -/
theorem spells_split {cs : List Char} (h : (split cs).isNumber = true) : (split cs).Spells cs := by
  obtain ⟨sign, hsign, hcs⟩ := spellsSign_splitSign cs
  have hne : (split cs).whole ++ (split cs).fraction ≠ [] := by
    intro hnil
    simp [Parts.isNumber, List.append_eq_nil_iff.1 hnil] at h
  have hnumber : SpellsNumber ((splitSign cs).2.takeWhile isNumberChar) (split cs).whole
      (split cs).fraction := spellsNumber_split hne (split_digits h)
  have hsuffix : (split cs).suffix = (splitSign cs).2.dropWhile isNumberChar := rfl
  have hspelled : (split cs).Spells
      (sign ++ ((splitSign cs).2.takeWhile isNumberChar ++ (split cs).suffix)) :=
    .intro hsign hnumber
  rwa [hsuffix, List.takeWhile_append_dropWhile, ← hcs] at hspelled

theorem head_split_suffix (cs : List Char) :
    ∀ c ∈ (split cs).suffix.head?, isNumberChar c = false := by
  intro c hc
  have hsuffix : (split cs).suffix.head? = ((splitSign cs).2.dropWhile isNumberChar).head? := rfl
  have hhead := List.head?_dropWhile_not isNumberChar (splitSign cs).2
  rw [← hsuffix, hc] at hhead
  simpa using hhead

theorem ne_nil_of_isNumber {cs : List Char} (h : (split cs).isNumber = true) : cs ≠ [] := by
  rintro rfl
  exact absurd h (by decide)

theorem namedScale_exponent {mark : Char} {digits : List Char} {ten : Int}
    (hmark : mark = 'e' ∨ mark = 'E') (h : SpellsInteger digits ten) :
    namedScale (mark :: digits) = none := by
  -- of the named suffixes, only two begin with a mark, and neither goes on with an integer
  have hbare : digits ≠ [] := h.ne_nil
  have hbinary : digits ≠ ['i'] := by
    rintro rfl
    exact absurd (h.isDigit_or_sign 'i' List.mem_cons_self) (by decide)
  rcases hmark with rfl | rfl
  · simp [namedScale]
  · simp [namedScale, hbare, hbinary]

theorem spellsScale_of_named {suffix : List Char} {scale : Scale}
    (h : namedScale suffix = some scale) : SpellsScale suffix scale := by
  have hthousands (i : Fin 10) : SpellsScale (thousandSuffixes[i]) ⟨3 * i - 9, 0⟩ :=
    .thousands (i := i) (by simp)
  have hbinary (i : Fin 6) : SpellsScale [binaryLetters[i], 'i'] ⟨0, 10 * (i + 1)⟩ :=
    .binary (i := i) (by simp)
  unfold namedScale at h
  split at h
  all_goals cases h
  exacts [hthousands 3, hthousands 0, hthousands 1, hthousands 2, hthousands 4, hthousands 5,
    hthousands 6, hthousands 7, hthousands 8, hthousands 9, hbinary 0, hbinary 1, hbinary 2,
    hbinary 3, hbinary 4, hbinary 5]

/-- A suffix is read for the scale that it is written for, if the exponent has 32 bits. -/
theorem suffixScale_eq_some_iff {suffix : List Char} {scale : Scale} :
    suffixScale suffix = some scale ↔ SpellsScale suffix scale ∧
      -(Text.maxInt32 : Int) - 1 ≤ scale.ten ∧ scale.ten ≤ Text.maxInt32 := by
  constructor
  · intro h
    obtain ⟨hlow, hhigh, -⟩ := suffixScale_bounds h
    refine ⟨?_, hlow, hhigh⟩
    unfold suffixScale at h
    split at h
    · next named hnamed =>
      cases h
      exact spellsScale_of_named hnamed
    · split at h
      · next hstart =>
        obtain ⟨ten, hten, rfl⟩ := Option.map_eq_some_iff.1 h
        obtain ⟨hspelled, -⟩ := Text.readInteger?_eq_some_iff.1 hten
        unfold startsExponent at hstart
        split at hstart
        · exact .exponent (.inl rfl) hspelled
        · exact .exponent (.inr rfl) hspelled
        · cases hstart
      · cases h
  · intro h
    obtain ⟨hspelled, hbounds⟩ := h
    cases hspelled with
    | @thousands i _ h =>
      have hall : ∀ i : Fin 10, suffixScale thousandSuffixes[i] = some ⟨3 * i - 9, 0⟩ := by decide
      obtain ⟨hi, rfl⟩ := List.getElem?_eq_some_iff.1 h
      exact hall ⟨i, hi⟩
    | @binary i letter h =>
      have hall : ∀ i : Fin 6, suffixScale [binaryLetters[i], 'i'] = some ⟨0, 10 * (i + 1)⟩ := by
        decide
      obtain ⟨hi, rfl⟩ := List.getElem?_eq_some_iff.1 h
      exact hall ⟨i, hi⟩
    | @exponent mark digits ten hmark hten =>
      have hstart : startsExponent (mark :: digits) = true := by
        rcases hmark with rfl | rfl <;> rfl
      have hread := Text.readInteger?_eq_some_iff.2 ⟨hten, hbounds⟩
      simp [suffixScale, namedScale_exponent hmark hten, hstart, hread]

theorem written_split {cs : List Char} {scale : Scale} (hnumber : (split cs).isNumber = true)
    (hscale : suffixScale (split cs).suffix = some scale) : Written cs (split cs) scale :=
  ⟨spells_split hnumber, (suffixScale_eq_some_iff.1 hscale).1⟩

theorem admitted_split {cs : List Char} {scale : Scale}
    (h : (split cs).isNumber = true ∧ suffixScale (split cs).suffix = some scale ∧
      (split cs).digitCount ≤ maxDigits ∧ scale.ten.natAbs ≤ maxExponent) :
    Admitted cs (split cs) scale :=
  ⟨written_split h.1 h.2.1, h.2.2.1, h.2.2.2⟩

namespace Written
variable {cs : List Char} {p : Parts} {scale : Scale}

theorem split_eq (h : Written cs p scale) : split cs = p := h.parts.split_eq h.suffix.head

theorem ne_nil (h : Written cs p scale) : cs ≠ [] := by
  have hnumber := h.parts.isNumber
  rw [← h.split_eq] at hnumber
  exact ne_nil_of_isNumber hnumber

theorem suffixScale_eq (h : Written cs p scale) (hlow : -(Text.maxInt32 : Int) - 1 ≤ scale.ten)
    (hhigh : scale.ten ≤ Text.maxInt32) : suffixScale p.suffix = some scale :=
  suffixScale_eq_some_iff.2 ⟨h.suffix, hlow, hhigh⟩

end Written

theorem Admitted.suffixScale_eq {cs : List Char} {p : Parts} {scale : Scale}
    (h : Admitted cs p scale) : suffixScale p.suffix = some scale := by
  have hexponent := h.exponent
  have hsize : maxExponent ≤ Text.maxInt32 := by decide
  exact h.toWritten.suffixScale_eq (by omega) (by omega)

/-- Whether a text is in the grammar and its limits can be told from what is read of it. -/
theorem exists_admitted_iff {cs : List Char} :
    (∃ p scale, Admitted cs p scale) ↔ (split cs).isNumber = true ∧
      (split cs).digitCount ≤ maxDigits ∧
      ∃ scale ∈ suffixScale (split cs).suffix, scale.ten.natAbs ≤ maxExponent := by
  constructor
  · rintro ⟨p, scale, h⟩
    rw [h.split_eq]
    exact ⟨h.parts.isNumber, h.digits, scale, h.suffixScale_eq, h.exponent⟩
  · rintro ⟨hnumber, hdigits, scale, hscale, hexponent⟩
    exact ⟨split cs, scale, admitted_split ⟨hnumber, hscale, hdigits, hexponent⟩⟩

end PodSizing.Quantity
