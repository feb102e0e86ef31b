import PodSizing.Proofs.Quantity.Amount

/-!
# What reading a quantity comes to

A text gives an amount only if it is in the grammar of quantities, and then the exact one rounded away from
zero. What is out of range has too many digits, too large an exponent, or an amount that does not fit,
but there are amounts that fit and are out of range all the same.
-/
namespace PodSizing.Quantity
open Text (signed trimChars)

/-- A number that is short enough to be read has the least exponent that 32 bits hold. -/
def LeastExponent (cs : List Char) : Prop :=
  ∃ p scale, Written cs p scale ∧ p.digitCount ≤ maxDigits ∧ scale.ten = -2 ^ 31

/-- A text is a number that is not read for its size: it has more digits than are read, whatever its
suffix is, or a larger exponent in the width that exponents are kept in, or its amount or a number on the
way to that leaves the range. -/
inductive OutOfRange (cs : List Char) : Prop
  | digits {p : Parts} (h : p.Spells cs) (hsuffix : ∀ c ∈ p.suffix.head?, isNumberChar c = false)
      (hdigits : maxDigits < p.digitCount) : OutOfRange cs
  | exponent {p : Parts} {scale : Scale} (h : Written cs p scale)
      (hfar : maxExponent < scale.ten.natAbs) (hwidth : scale.ten.natAbs < 2 ^ 31) : OutOfRange cs
  | amount {p : Parts} {scale : Scale} (h : Admitted cs p scale)
      (hrange : ¬ (InRange (p.rounded scale) ∧ p.StaysInRange scale)) : OutOfRange cs

theorem hasLeastExponent_iff {cs : List Char} :
    (split cs).hasLeastExponent = true ↔ LeastExponent cs := by
  have hleast : -(Text.maxInt32 : Int) - 1 = -2 ^ 31 := by decide
  rw [Parts.hasLeastExponent, Bool.and_eq_true, Bool.and_eq_true, Option.any_eq_true]
  constructor
  · rintro ⟨⟨hnumber, hdigits⟩, scale, hscale, hten⟩
    exact ⟨split cs, scale, written_split hnumber hscale, of_decide_eq_true hdigits,
      (of_decide_eq_true hten).trans hleast⟩
  · rintro ⟨p, scale, hwritten, hdigits, hten⟩
    have hscale := hwritten.suffixScale_eq (by rw [hten, hleast]) (by rw [hten]; decide)
    rw [hwritten.split_eq]
    exact ⟨⟨hwritten.parts.isNumber, decide_eq_true hdigits⟩, scale, hscale,
      decide_eq_true (hten.trans hleast.symm)⟩

instance (cs : List Char) : Decidable (LeastExponent cs) :=
  decidable_of_iff _ hasLeastExponent_iff

theorem Admitted.not_leastExponent {cs : List Char} {p : Parts} {scale : Scale}
    (h : Admitted cs p scale) : ¬ LeastExponent cs := by
  intro hleast
  rw [← hasLeastExponent_iff, h.split_eq, Parts.hasLeastExponent, h.suffixScale_eq,
    Bool.and_eq_true, Option.any_some, decide_eq_true_eq] at hleast
  have hexponent : scale.ten.natAbs ≤ 30 := h.exponent
  have hmax : Text.maxInt32 = 2 ^ 31 - 1 := by decide
  omega

section Reading
variable {s : String} {p : Parts} {scale : Scale}

theorem guardedParse_leastExponent (h : LeastExponent (trimChars s.toList)) :
    guardedParse s = .error .negation := by
  have hguard := hasLeastExponent_iff.2 h
  unfold guardedParse
  split
  · next hnil =>
    rw [hnil] at hguard
    exact absurd hguard (by decide)
  · rw [guardedMillis_eq, hguard]
    rfl

/-- A text is read by its parts, if it has any and not the least exponent. -/
theorem guardedParse_eq_millis (hne : trimChars s.toList ≠ [])
    (hleast : ¬ LeastExponent (trimChars s.toList)) :
    guardedParse s =
      .ok (((split (trimChars s.toList)).millis (Text.trim s)).map MilliValue.mk) := by
  rw [← hasLeastExponent_iff, Bool.not_eq_true] at hleast
  unfold guardedParse
  split
  · next hnil => exact absurd hnil hne
  · rw [guardedMillis_eq, hleast]
    rfl

theorem Admitted.guardedParse_scaled (h : Admitted (trimChars s.toList) p scale) :
    guardedParse s =
      .ok (match scaled p.mantissa scale.two (scale.ten + 3 - p.fraction.length) with
        | none => .error (.outOfRange (Text.trim s))
        | some n => .ok ⟨signed p.negative n⟩) := by
  rw [guardedParse_eq_millis h.toWritten.ne_nil h.not_leastExponent]
  simp only [h.split_eq, Parts.millis, h.parts.isNumber, h.suffixScale_eq, Nat.not_lt.2 h.digits,
    Nat.not_lt.2 h.exponent, Bool.not_true, Bool.false_eq_true, if_false]
  cases scaled p.mantissa scale.two (scale.ten + 3 - p.fraction.length) with
  | none => rfl
  | some n => rfl

/-- A text in the grammar and its limits is read, if the amount and the numbers on the way to it stay in
range. -/
theorem Admitted.guardedParse_ok (h : Admitted (trimChars s.toList) p scale)
    (hrange : InRange (p.rounded scale)) (hstays : p.StaysInRange scale) :
    guardedParse s = .ok (.ok ⟨p.rounded scale⟩) := by
  rw [h.guardedParse_scaled, h.scaled_iff.2 ⟨rfl, hrange, hstays⟩, p.rounded_eq]

theorem guardedParse_manyDigits (hnumber : (split (trimChars s.toList)).isNumber = true)
    (hdigits : maxDigits < (split (trimChars s.toList)).digitCount) :
    guardedParse s = .ok (.error (.outOfRange (Text.trim s))) := by
  have hleast : ¬ LeastExponent (trimChars s.toList) := by
    rw [← hasLeastExponent_iff, Parts.hasLeastExponent, Bool.and_eq_true, Bool.and_eq_true,
      decide_eq_true_eq]
    omega
  rw [guardedParse_eq_millis (ne_nil_of_isNumber hnumber) hleast]
  simp [Parts.millis, hnumber, hdigits, Except.map]

theorem Written.guardedParse_farExponent (h : Written (trimChars s.toList) p scale)
    (hdigits : p.digitCount ≤ maxDigits) (hfar : maxExponent < scale.ten.natAbs)
    (hwidth : scale.ten.natAbs < 2 ^ 31) :
    guardedParse s = .ok (.error (.outOfRange (Text.trim s))) := by
  have hmax : Text.maxInt32 = 2 ^ 31 - 1 := by decide
  have hscale := h.suffixScale_eq (by omega) (by omega)
  have hleast : ¬ LeastExponent (trimChars s.toList) := by
    rw [← hasLeastExponent_iff, h.split_eq, Parts.hasLeastExponent, hscale, Bool.and_eq_true,
      Option.any_some, decide_eq_true_eq]
    omega
  rw [guardedParse_eq_millis h.ne_nil hleast]
  simp [h.split_eq, Parts.millis, h.parts.isNumber, Nat.not_lt.2 hdigits, hscale, hfar, Except.map]

theorem OutOfRange.guardedParse_refused (h : OutOfRange (trimChars s.toList)) :
    guardedParse s = .ok (.error (.outOfRange (Text.trim s))) := by
  cases h with
  | @digits p h hsuffix hdigits =>
    rw [← h.split_eq hsuffix] at hdigits
    have hnumber := h.isNumber
    rw [← h.split_eq hsuffix] at hnumber
    exact guardedParse_manyDigits hnumber hdigits
  | @exponent p scale h hfar hwidth =>
    by_cases hdigits : p.digitCount ≤ maxDigits
    · exact h.guardedParse_farExponent hdigits hfar hwidth
    · rw [← h.split_eq] at hdigits
      have hnumber := h.parts.isNumber
      rw [← h.split_eq] at hnumber
      exact guardedParse_manyDigits hnumber (Nat.not_le.1 hdigits)
  | @amount p scale h hrange =>
    rw [h.guardedParse_scaled]
    cases hscaled : scaled p.mantissa scale.two (scale.ten + 3 - p.fraction.length) with
    | none => rfl
    | some n => exact absurd (h.scaled_iff.1 hscaled).2 hrange

end Reading

/-- What reading a text comes to, and why. -/
inductive Verdict (s : String) : Except Overflow (Except QuantityError MilliValue) → Prop
  | blank (h : trimChars s.toList = []) : Verdict s (.ok (.error .empty))
  | malformed {e : QuantityError}
      (h : e = .invalidNumber (Text.trim s) ∨ e = .unknownSuffix (Text.trim s)) :
      Verdict s (.ok (.error e))
  | outOfRange (h : OutOfRange (trimChars s.toList)) :
      Verdict s (.ok (.error (.outOfRange (Text.trim s))))
  | leastExponent (h : LeastExponent (trimChars s.toList)) : Verdict s (.error .negation)
  | read {p : Parts} {scale : Scale} (h : Admitted (trimChars s.toList) p scale)
      (hrange : InRange (p.rounded scale)) : Verdict s (.ok (.ok ⟨p.rounded scale⟩))

section Verdict
variable {s : String}

theorem OutOfRange.verdict (h : OutOfRange (trimChars s.toList)) : Verdict s (guardedParse s) := by
  rw [h.guardedParse_refused]
  exact .outOfRange h

/-- The verdict on a number with a scale. -/
theorem Written.verdict {p : Parts} {scale : Scale} (h : Written (trimChars s.toList) p scale)
    (hdigits : p.digitCount ≤ maxDigits) (hscale : suffixScale p.suffix = some scale) :
    Verdict s (guardedParse s) := by
  by_cases hexponent : scale.ten.natAbs ≤ maxExponent
  · have hadmitted : Admitted (trimChars s.toList) p scale := ⟨h, hdigits, hexponent⟩
    by_cases hrange : InRange (p.rounded scale) ∧ p.StaysInRange scale
    · rw [hadmitted.guardedParse_ok hrange.1 hrange.2]
      exact .read hadmitted hrange.1
    · exact (OutOfRange.amount hadmitted hrange).verdict
  · -- the least exponent has no size, so that it never gets to the limit
    by_cases hleast : scale.ten = -2 ^ 31
    · have hnoSize : LeastExponent (trimChars s.toList) := ⟨p, scale, h, hdigits, hleast⟩
      rw [guardedParse_leastExponent hnoSize]
      exact .leastExponent hnoSize
    · obtain ⟨hlow, hhigh, -⟩ := suffixScale_bounds hscale
      have hmax : Text.maxInt32 = 2 ^ 31 - 1 := by decide
      exact (OutOfRange.exponent h (Nat.not_le.1 hexponent) (by omega)).verdict

theorem verdict_of_noScale (hnumber : (split (trimChars s.toList)).isNumber = true)
    (hdigits : (split (trimChars s.toList)).digitCount ≤ maxDigits)
    (hscale : suffixScale (split (trimChars s.toList)).suffix = none) :
    Verdict s (guardedParse s) := by
  have hleast : ¬ LeastExponent (trimChars s.toList) := by
    simp [← hasLeastExponent_iff, Parts.hasLeastExponent, hscale]
  have hresult := guardedParse_eq_millis (ne_nil_of_isNumber hnumber) hleast
  simp only [Parts.millis, hnumber, Nat.not_lt.2 hdigits, hscale, Bool.not_true,
    Bool.false_eq_true, if_false] at hresult
  rw [hresult]
  apply Verdict.malformed
  split
  · exact .inl rfl
  · exact .inr rfl

theorem verdict_of_noNumber (hnumber : (split (trimChars s.toList)).isNumber = false) :
    Verdict s (guardedParse s) := by
  by_cases hnil : trimChars s.toList = []
  · have hresult : guardedParse s = .ok (.error .empty) := by simp [guardedParse, hnil]
    rw [hresult]
    exact .blank hnil
  · have hleast : ¬ LeastExponent (trimChars s.toList) := by
      simp [← hasLeastExponent_iff, Parts.hasLeastExponent, hnumber]
    have hresult := guardedParse_eq_millis hnil hleast
    simp only [Parts.millis, hnumber, Bool.not_false, if_true] at hresult
    rw [hresult]
    exact .malformed (.inl rfl)

theorem guardedParse_verdict (s : String) : Verdict s (guardedParse s) := by
  cases hnumber : (split (trimChars s.toList)).isNumber with
  | false => exact verdict_of_noNumber hnumber
  | true =>
    by_cases hdigits : (split (trimChars s.toList)).digitCount ≤ maxDigits
    · cases hscale : suffixScale (split (trimChars s.toList)).suffix with
      | none => exact verdict_of_noScale hnumber hdigits hscale
      | some scale => exact (written_split hnumber hscale).verdict hdigits hscale
    · have hmany := Nat.not_le.1 hdigits
      exact (OutOfRange.digits (spells_split hnumber) (head_split_suffix _) hmany).verdict

end Verdict

/-- Every amount that is read is the exact one, rounded away from zero, of a text in the grammar and its
limits. Every other text is refused with a cause, but for the least exponent: that stops the reading. -/
theorem guardedParse_sound (s : String) :
    (∀ v, guardedParse s = .ok (.ok v) →
        ∃ p scale, Admitted (trimChars s.toList) p scale ∧ v.millis = p.rounded scale) ∧
      (¬ (∃ p scale, Admitted (trimChars s.toList) p scale) →
        ¬ LeastExponent (trimChars s.toList) → ∃ e, guardedParse s = .ok (.error e)) ∧
      (LeastExponent (trimChars s.toList) → guardedParse s = .error .negation) := by
  have hverdict := guardedParse_verdict s
  refine ⟨?_, ?_, guardedParse_leastExponent⟩
  · intro v hv
    rw [hv] at hverdict
    cases hverdict with
    | read h hrange => exact ⟨_, _, h, rfl⟩
  · intro hnone hleast
    cases hresult : guardedParse s with
    | error e =>
      rw [hresult] at hverdict
      cases hverdict with
      | leastExponent h => exact absurd h hleast
    | ok result =>
      cases result with
      | error e => exact ⟨e, rfl⟩
      | ok v =>
        rw [hresult] at hverdict
        cases hverdict with
        | read h hrange => exact absurd ⟨_, _, h⟩ hnone

/-- Half a millionth below zero is read as a thousandth below zero, and an exponent above thirty is
refused, but not the least. -/
theorem negativeTrifle_sound :
    (guardedParse " -0.5u " = .ok (.ok ⟨-1⟩) ∧
      ∃ p scale, Admitted (trimChars " -0.5u ".toList) p scale ∧ -1 = p.rounded scale) ∧
    (¬ (∃ p scale, Admitted (trimChars "1e31".toList) p scale) ∧
      ∃ e, guardedParse "1e31" = .ok (.error e)) ∧
    guardedParse "1e-2147483648" = .error .negation := by
  have hread : guardedParse " -0.5u " = .ok (.ok ⟨-1⟩) := by decide +kernel
  have hfar : ¬ ∃ p scale, Admitted (trimChars "1e31".toList) p scale := by
    rw [exists_admitted_iff]
    decide +kernel
  refine ⟨⟨hread, (guardedParse_sound " -0.5u ").1 _ hread⟩, ⟨hfar, ?_⟩, ?_⟩
  · exact (guardedParse_sound "1e31").2.1 hfar (by decide +kernel)
  · exact (guardedParse_sound "1e-2147483648").2.2 (by decide +kernel)

/-- The exponent that stops the reading is larger than is allowed, so its text should be refused. -/
theorem leastExponent_not_refused :
    ¬ (∃ p scale, Admitted (trimChars "1e-2147483648".toList) p scale) ∧
      ¬ ∃ e, guardedParse "1e-2147483648" = .ok (.error e) := by
  have hstopped : guardedParse "1e-2147483648" = .error .negation := by decide +kernel
  constructor
  · rw [exists_admitted_iff]
    decide +kernel
  · rintro ⟨e, he⟩
    rw [hstopped] at he
    cases he

/-- In the grammar and its limits, an amount in range is read just where the numbers on the way to it stay in
range. What is refused as out of range has too many digits or too large an exponent, or is an amount that
leaves the range or is reached by a number that does. -/
theorem guardedParse_inRange_iff (s : String) :
    (∀ p scale, Admitted (trimChars s.toList) p scale →
        (guardedParse s = .ok (.ok ⟨p.rounded scale⟩) ↔
          InRange (p.rounded scale) ∧ p.StaysInRange scale)) ∧
      ∀ text, guardedParse s = .ok (.error (.outOfRange text)) ↔
        text = Text.trim s ∧ OutOfRange (trimChars s.toList) := by
  constructor
  · intro p scale h
    by_cases hrange : InRange (p.rounded scale) ∧ p.StaysInRange scale
    · simp [h.guardedParse_ok hrange.1 hrange.2, hrange]
    · simp [(OutOfRange.amount h hrange).guardedParse_refused, hrange]
  · intro text
    constructor
    · intro htext
      have hverdict := guardedParse_verdict s
      rw [htext] at hverdict
      cases hverdict with
      | malformed h => rcases h with h | h <;> cases h
      | outOfRange h => exact ⟨rfl, h⟩
    · rintro ⟨rfl, h⟩
      exact h.guardedParse_refused

/-- A number and a half of the largest binary unit is read. -/
theorem halfDigit_inRange :
    ∃ p scale, Admitted (trimChars "1.5Ei".toList) p scale ∧ InRange (p.rounded scale) ∧
      p.StaysInRange scale ∧ guardedParse "1.5Ei" = .ok (.ok ⟨p.rounded scale⟩) := by
  have hadmitted : Admitted (trimChars "1.5Ei".toList) (split (trimChars "1.5Ei".toList)) ⟨0, 60⟩ :=
    admitted_split (by decide +kernel)
  have hrange : InRange ((split (trimChars "1.5Ei".toList)).rounded ⟨0, 60⟩) := by decide +kernel
  have hstays : (split (trimChars "1.5Ei".toList)).StaysInRange ⟨0, 60⟩ :=
    ⟨by decide +kernel, by decide +kernel, by decide +kernel⟩
  exact ⟨_, _, hadmitted, hrange, hstays,
    ((guardedParse_inRange_iff "1.5Ei").1 _ _ hadmitted).2 ⟨hrange, hstays⟩⟩

def RefusedInRange (s : String) : Prop :=
  (∃ p scale, Admitted (trimChars s.toList) p scale ∧ InRange (p.rounded scale)) ∧
    guardedParse s = .ok (.error (.outOfRange (Text.trim s)))

/-- Each of the three numbers that must stay in range can leave it: the power of ten that nothing is
divided by, the product of half as much again as the unit, and the size of the least amount. -/
theorem inRange_refused :
    RefusedInRange "0.000000000000e-30" ∧ RefusedInRange "1.50000000000000000000Ei" ∧
      RefusedInRange "-147573952589676412.928Ei" := by
  refine ⟨⟨⟨_, ⟨-30, 0⟩, admitted_split ?_, ?_⟩, ?_⟩, ⟨⟨_, ⟨0, 60⟩, admitted_split ?_, ?_⟩, ?_⟩,
    ⟨⟨_, ⟨0, 60⟩, admitted_split ?_, ?_⟩, ?_⟩⟩
  all_goals decide +kernel

end PodSizing.Quantity
