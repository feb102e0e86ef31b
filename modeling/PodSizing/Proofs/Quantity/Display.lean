import PodSizing.Proofs.Quantity.Reading
import PodSizing.Proofs.Text.Basic

/-!
# Displayed amounts read back

An amount is displayed as a whole number of thousandths. That is read back as the same amount up to the
number of digits that quantities may have, and is out of range from there on.
-/
namespace PodSizing.Quantity
open Text (signed numeral numeralValue trimChars SpellsSign)

def displayedParts (v : MilliValue) : Parts := ⟨v.millis < 0, numeral v.millis.natAbs, [], ['m']⟩

theorem isDigit_of_mem_numeral {n : Nat} {c : Char} (h : c ∈ numeral n) : c.isDigit = true :=
  Nat.isDigit_of_mem_toDigits (by decide) (by decide) h

theorem spellsSign_display (n : Int) :
    ∃ sign, SpellsSign sign (n < 0) ∧ Text.signedNumeral n = sign ++ numeral n.natAbs := by
  by_cases hn : n < 0
  · exact ⟨['-'], by simpa [hn] using SpellsSign.minus, by simp [Text.signedNumeral, hn]⟩
  · exact ⟨[], by simpa [hn] using SpellsSign.none, by simp [Text.signedNumeral, hn]⟩

theorem display_written (v : MilliValue) : Written v.display.toList (displayedParts v) ⟨-3, 0⟩ := by
  obtain ⟨sign, hsign, htext⟩ := spellsSign_display v.millis
  have hnumber : SpellsNumber (numeral v.millis.natAbs) (numeral v.millis.natAbs) [] :=
    .plain Nat.toDigits_ne_nil fun _ => isDigit_of_mem_numeral
  have hparts : (displayedParts v).Spells (sign ++ (numeral v.millis.natAbs ++ ['m'])) :=
    .intro hsign hnumber
  have hdisplay : v.display.toList = sign ++ (numeral v.millis.natAbs ++ ['m']) := by
    rw [MilliValue.display, String.toList_ofList, htext, List.append_assoc]
  rw [hdisplay]
  exact ⟨hparts, .thousands (i := 2) rfl⟩

theorem trimChars_display (v : MilliValue) : trimChars v.display.toList = v.display.toList := by
  have hnumeral : ∀ c ∈ numeral v.millis.natAbs, Text.isBlank c = false := fun _ hc =>
    Text.isBlank_of_isDigit (isDigit_of_mem_numeral hc)
  apply Text.trimChars_eq_self
  intro c hc
  rw [MilliValue.display, String.toList_ofList, List.mem_append, List.mem_singleton] at hc
  rcases hc with hc | rfl
  · unfold Text.signedNumeral at hc
    split at hc
    · rcases List.mem_cons.1 hc with rfl | hc
      · decide
      · exact hnumeral c hc
    · exact hnumeral c hc
  · decide

theorem displayedParts_mantissa (v : MilliValue) :
    (displayedParts v).mantissa = v.millis.natAbs := by
  rw [Parts.mantissa, displayedParts, List.append_nil, Text.numeralValue_numeral]

/-- The suffix for thousandths cancels against the unit of amounts. -/
theorem displayedParts_rounded (v : MilliValue) :
    (displayedParts v).rounded ⟨-3, 0⟩ = v.millis := by
  have hexact : (displayedParts v).exact ⟨-3, 0⟩ = (v.millis.natAbs : ℚ) := by
    rw [Parts.exact, displayedParts_mantissa]
    simp [displayedParts]
  rw [Parts.rounded, hexact, Int.ceil_natCast]
  by_cases hn : v.millis < 0
  · simp only [signed, displayedParts, hn, decide_true, if_true]
    omega
  · simp only [signed, displayedParts, hn, decide_false, Bool.false_eq_true, if_false]
    omega

theorem displayedParts_digitCount_le_iff (v : MilliValue) :
    (displayedParts v).digitCount ≤ maxDigits ↔ v.millis.natAbs < 10 ^ 30 :=
  Nat.length_toDigits_le_iff (by decide) (by decide)

theorem displayedParts_inRange {v : MilliValue} (h : v.millis.natAbs < 10 ^ 30) :
    InRange ((displayedParts v).rounded ⟨-3, 0⟩) ∧ (displayedParts v).StaysInRange ⟨-3, 0⟩ := by
  have hproduct : (displayedParts v).mantissa * 2 ^ 0 < 2 ^ 127 := by
    rw [displayedParts_mantissa]
    omega
  have hdivisor : (-38 : Int) ≤ -3 + 3 - (displayedParts v).fraction.length := by
    simp [displayedParts]
  rw [displayedParts_rounded]
  constructor
  · exact ⟨by omega, by omega⟩
  · refine ⟨hproduct, hdivisor, ?_⟩
    rw [displayedParts_rounded]
    omega

/-- An amount is read back from its display if it has no more than thirty digits, and is out of range if
it has more. -/
theorem guardedParse_display (v : MilliValue) :
    guardedParse v.display =
      .ok (if v.millis.natAbs < 10 ^ 30 then .ok v else .error (.outOfRange v.display)) := by
  have hwritten : Written (trimChars v.display.toList) (displayedParts v) ⟨-3, 0⟩ := by
    rw [trimChars_display]
    exact display_written v
  by_cases hsmall : v.millis.natAbs < 10 ^ 30
  · have hadmitted : Admitted (trimChars v.display.toList) (displayedParts v) ⟨-3, 0⟩ :=
      ⟨hwritten, (displayedParts_digitCount_le_iff v).2 hsmall, by decide⟩
    obtain ⟨hrange, hstays⟩ := displayedParts_inRange hsmall
    rw [hadmitted.guardedParse_ok hrange hstays, displayedParts_rounded, if_pos hsmall]
  · have htrim : Text.trim v.display = v.display := by
      rw [Text.trim, trimChars_display, String.ofList_toList]
    have hdigits : maxDigits < (displayedParts v).digitCount := by
      rw [← Nat.not_le, displayedParts_digitCount_le_iff]
      exact hsmall
    have hlarge : OutOfRange (trimChars v.display.toList) :=
      .digits hwritten.parts hwritten.suffix.head hdigits
    rw [hlarge.guardedParse_refused, htrim, if_neg hsmall]

end PodSizing.Quantity
