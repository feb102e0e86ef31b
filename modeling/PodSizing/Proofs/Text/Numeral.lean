import Mathlib.Algebra.Ring.Nat
import PodSizing.Proofs.Except
import PodSizing.Text.Basic

/-!
# Numerals read back

A numeral has the value of the number that it writes, also with zeros in front. What is read under a
bound keeps to it, and is whatever is spelled and does.
-/
namespace PodSizing.Text

theorem digitValue_le {c : Char} (h : c.isDigit = true) : digitValue c ≤ 9 := by
  simp only [Char.isDigit, Bool.and_eq_true, decide_eq_true_eq, ge_iff_le] at h
  have hhigh : c.toNat ≤ '9'.toNat := h.2
  have hnine : '9'.toNat = 57 := rfl
  have hzero : '0'.toNat = 48 := rfl
  simp only [digitValue]
  omega

theorem zero_le_of_isDigit {c : Char} (h : c.isDigit = true) : '0'.toNat ≤ c.toNat := by
  simp only [Char.isDigit, Bool.and_eq_true, decide_eq_true_eq, ge_iff_le] at h
  exact h.1

theorem readDigits_le {bound n m : Nat} {cs : List Char} (hn : n ≤ bound)
    (h : readDigits bound n cs = .ok m) : m ≤ bound := by
  induction cs generalizing n with
  | nil =>
    cases h
    exact hn
  | cons c cs ih =>
    simp only [readDigits] at h
    split at h
    · cases h
    · split at h
      · cases h
      · exact ih (by omega) h

theorem readInteger?_bounds {bound : Nat} {cs : List Char} {n : Int}
    (h : readInteger? bound cs = some n) : -(bound : Int) - 1 ≤ n ∧ n ≤ bound := by
  have hread {b : Nat} {ds : List Char} {m : Nat} (hm : (readDigits b 0 ds).toOption = some m) :
      m ≤ b := readDigits_le (Nat.zero_le b) (Except.toOption_eq_some.1 hm)
  unfold readInteger? at h
  split at h
  · cases h
  · cases h
  · cases h
  · obtain ⟨k, hk, rfl⟩ := Option.map_eq_some_iff.1 h
    obtain ⟨m, hm, hkm⟩ := Option.bind_eq_some_iff.1 hk
    cases hkm
    have hle := hread hm
    omega
  · obtain ⟨m, hm, rfl⟩ := Option.map_eq_some_iff.1 h
    have hle := hread hm
    simp only [Int.ofNat_eq_natCast]
    omega
  · obtain ⟨m, hm, rfl⟩ := Option.map_eq_some_iff.1 h
    have hle := hread hm
    simp only [Int.ofNat_eq_natCast]
    omega

theorem numeralValue_eq (cs : List Char) : numeralValue cs = Nat.ofDigitChars 10 cs 0 := by
  unfold numeralValue Nat.ofDigitChars
  congr 1
  funext n c
  rw [Nat.mul_comm]
  rfl

theorem numeralValue_numeral (n : Nat) : numeralValue (numeral n) = n := by
  rw [numeralValue_eq]
  exact Nat.ofDigitChars_ten_toDigits

theorem numeralValue_zeros (count : Nat) (cs : List Char) :
    numeralValue (List.replicate count '0' ++ cs) = numeralValue cs := by
  induction count with
  | zero => rfl
  | succ count ih => exact ih

theorem numeralValue_paddedNumeral (width n : Nat) : numeralValue (paddedNumeral width n) = n := by
  rw [paddedNumeral, numeralValue_zeros, numeralValue_numeral]

theorem isDigit_paddedNumeral {width n : Nat} {c : Char} (h : c ∈ paddedNumeral width n) :
    c.isDigit = true := by
  rcases List.mem_append.1 h with hzero | hdigit
  · rw [List.eq_of_mem_replicate hzero]
    rfl
  · exact Nat.isDigit_of_mem_toDigits (by decide) (by decide) hdigit

theorem paddedNumeral_ne_nil (width n : Nat) : paddedNumeral width n ≠ [] := by
  intro h
  exact Nat.toDigits_ne_nil (List.append_eq_nil_iff.1 h).2

theorem length_paddedNumeral {width n : Nat} (hwidth : 0 < width) (h : n < 10 ^ width) :
    (paddedNumeral width n).length = width := by
  have hle : (numeral n).length ≤ width := (Nat.length_toDigits_le_iff (by decide) hwidth).2 h
  rw [paddedNumeral, List.length_append, List.length_replicate]
  omega

inductive SpellsSign : List Char → Bool → Prop
  | none : SpellsSign [] false
  | plus : SpellsSign ['+'] false
  | minus : SpellsSign ['-'] true

def signed (negative : Bool) (n : Int) : Int := if negative then -n else n

inductive SpellsInteger : List Char → Int → Prop
  | intro {sign digits : List Char} {negative : Bool} (hsign : SpellsSign sign negative)
      (hne : digits ≠ []) (hdigits : ∀ c ∈ digits, c.isDigit = true) :
      SpellsInteger (sign ++ digits) (signed negative (numeralValue digits))

theorem SpellsSign.eq_plus_or_minus {sign : List Char} {negative : Bool}
    (h : SpellsSign sign negative) : ∀ c ∈ sign, c = '+' ∨ c = '-' := by
  cases h <;> simp

namespace SpellsInteger
variable {cs : List Char} {n : Int}

theorem ne_nil (h : SpellsInteger cs n) : cs ≠ [] := by
  cases h with
  | intro hsign hne hdigits => simp [hne]

theorem isDigit_or_sign (h : SpellsInteger cs n) :
    ∀ c ∈ cs, c.isDigit = true ∨ c = '+' ∨ c = '-' := by
  intro c hc
  cases h with
  | intro hsign hne hdigits =>
    rcases List.mem_append.1 hc with hc | hc
    · exact .inr (hsign.eq_plus_or_minus c hc)
    · exact .inl (hdigits c hc)

end SpellsInteger

theorem ne_of_isDigit {c d : Char} (hc : c.isDigit = true) (hd : d.isDigit = false) : c ≠ d := by
  intro h
  rw [h, hd] at hc
  cases hc

theorem le_foldl_digits (n : Nat) (cs : List Char) :
    n ≤ cs.foldl (fun n c => n * 10 + digitValue c) n := by
  induction cs generalizing n with
  | nil => exact Nat.le_refl n
  | cons c cs ih =>
    have hstep := ih (n * 10 + digitValue c)
    rw [List.foldl_cons]
    omega

/-- What is read behind a number are digits, and the value stays within the bound. -/
theorem readDigits_eq_ok_iff {bound n m : Nat} {cs : List Char} (hn : n ≤ bound) :
    readDigits bound n cs = .ok m ↔ (∀ c ∈ cs, c.isDigit = true) ∧
      cs.foldl (fun n c => n * 10 + digitValue c) n = m ∧ m ≤ bound := by
  induction cs generalizing n with
  | nil =>
    simp only [readDigits, Except.ok.injEq, List.not_mem_nil, List.foldl_nil]
    constructor
    · intro h
      exact ⟨nofun, h, h ▸ hn⟩
    · intro h
      exact h.2.1
  | cons c cs ih =>
    rw [List.forall_mem_cons, List.foldl_cons, readDigits]
    by_cases hc : c.isDigit = true
    · by_cases hb : bound < n * 10 + digitValue c
      · have hgrown := le_foldl_digits (n * 10 + digitValue c) cs
        simp only [hc, hb, Bool.not_true, Bool.false_eq_true, if_false, if_true, reduceCtorEq,
          false_iff]
        omega
      · simp only [hc, hb, Bool.not_true, Bool.false_eq_true, if_false, true_and]
        exact ih (Nat.not_lt.1 hb)
    · simp [hc]

theorem readDigits_toOption {bound m : Nat} {cs : List Char} :
    (readDigits bound 0 cs).toOption = some m ↔
      (∀ c ∈ cs, c.isDigit = true) ∧ numeralValue cs = m ∧ m ≤ bound :=
  Except.toOption_eq_some.trans (readDigits_eq_ok_iff (Nat.zero_le bound))

theorem readInteger?_digits {bound : Nat} {cs : List Char} (hne : cs ≠ [])
    (hdigits : ∀ c ∈ cs, c.isDigit = true) :
    readInteger? bound cs = (readDigits bound 0 cs).toOption.map Int.ofNat := by
  cases cs with
  | nil => exact absurd rfl hne
  | cons c cs =>
    have hc := hdigits c List.mem_cons_self
    have hplus : c ≠ '+' := ne_of_isDigit hc rfl
    have hminus : c ≠ '-' := ne_of_isDigit hc rfl
    simp [readInteger?, hplus, hminus]

/-- A whole number between the bounds is read, and nothing else. -/
theorem readInteger?_eq_some_iff {bound : Nat} {cs : List Char} {n : Int} :
    readInteger? bound cs = some n ↔
      SpellsInteger cs n ∧ -(bound : Int) - 1 ≤ n ∧ n ≤ bound := by
  constructor
  · intro h
    refine ⟨?_, readInteger?_bounds h⟩
    unfold readInteger? at h
    split at h
    · cases h
    · cases h
    · cases h
    · next digits hne =>
      obtain ⟨k, hk, rfl⟩ := Option.map_eq_some_iff.1 h
      obtain ⟨m, hm, hkm⟩ := Option.bind_eq_some_iff.1 hk
      cases hkm
      obtain ⟨hdigits, rfl, -⟩ := readDigits_toOption.1 hm
      exact .intro .minus hne hdigits
    · next digits hne =>
      obtain ⟨m, hm, rfl⟩ := Option.map_eq_some_iff.1 h
      obtain ⟨hdigits, rfl, -⟩ := readDigits_toOption.1 hm
      exact .intro .plus hne hdigits
    · next hne _ _ _ _ =>
      obtain ⟨m, hm, rfl⟩ := Option.map_eq_some_iff.1 h
      obtain ⟨hdigits, rfl, -⟩ := readDigits_toOption.1 hm
      exact .intro .none hne hdigits
  · rintro ⟨hspelled, hlow, hhigh⟩
    cases hspelled with
    | @intro sign digits negative hsign hne hdigits =>
      cases hsign with
      | none =>
        have hread := readDigits_toOption.2 ⟨hdigits, rfl, Int.ofNat_le.1 hhigh⟩
        rw [List.nil_append, readInteger?_digits hne hdigits, hread]
        rfl
      | plus =>
        have hread := readDigits_toOption.2 ⟨hdigits, rfl, Int.ofNat_le.1 hhigh⟩
        simp [readInteger?, hread, signed]
      | minus =>
        have hbound : numeralValue digits ≤ bound + 1 := by
          simp only [signed, if_true] at hlow
          omega
        have hread := readDigits_toOption.2 ⟨hdigits, rfl, hbound⟩
        simp [readInteger?, hread, signed]

theorem readNatural_toOption {bound n : Nat} {cs : List Char} :
    (readNatural bound cs).toOption = some n ↔
      ∃ sign digits, cs = sign ++ digits ∧ SpellsSign sign false ∧ digits ≠ [] ∧
        (∀ c ∈ digits, c.isDigit = true) ∧ numeralValue digits = n ∧ n ≤ bound := by
  constructor
  · intro h
    unfold readNatural at h
    split at h
    · cases h
    · cases h
    · next digits hne =>
      exact ⟨['+'], digits, rfl, .plus, hne, readDigits_toOption.1 h⟩
    · next hne _ _ =>
      exact ⟨[], cs, rfl, .none, hne, readDigits_toOption.1 h⟩
  · rintro ⟨sign, digits, rfl, hsign, hne, hread⟩
    obtain ⟨c, rest, rfl⟩ := List.exists_cons_of_ne_nil hne
    have hread' := readDigits_toOption.2 hread
    cases hsign with
    | plus => exact hread'
    | none =>
      have hplus : c ≠ '+' := ne_of_isDigit (hread.1 c List.mem_cons_self) rfl
      simpa [readNatural, hplus] using hread'

end PodSizing.Text
