import Mathlib.Data.List.TakeWhile
import PodSizing.Proofs.Text.Numeral
import PodSizing.Quantity.Guarded

/-!
# Reading quantities within their widths

Guarded reading does what reading does. The bounds on digits and exponents keep every step within its
width, save one that comes before they are asked for: the size of the least exponent.
-/
namespace PodSizing.Quantity
open Overflow (hold)

theorem hold_millis {n : Int} (operation : Overflow) (hlow : -(maxMillis : Int) ≤ n)
    (hhigh : n ≤ maxMillis) : hold 128 operation n = .ok n := by
  have hbound : ((Nat.pow 2 (128 - 1) : Nat) : Int) = maxMillis + 1 := by decide
  simp only [hold, hbound]
  exact if_pos (by omega)

theorem hold_natCast {n : Nat} (operation : Overflow) (h : n ≤ maxMillis) :
    hold 128 operation (n : Int) = .ok (n : Int) :=
  hold_millis operation (by omega) (by omega)

theorem hold_exponent {n : Int} (operation : Overflow) (hlow : -(Text.maxInt32 : Int) ≤ n)
    (hhigh : n ≤ Text.maxInt32) : hold 32 operation n = .ok n := by
  have hbound : ((Nat.pow 2 (32 - 1) : Nat) : Int) = Text.maxInt32 + 1 := by decide
  simp only [hold, hbound]
  exact if_pos (by omega)

theorem checked_natCast (n : Nat) : checked n = (within n).map Int.ofNat := by
  by_cases h : n ≤ maxMillis
  · rw [checked, hold_natCast _ h, within, if_pos h]
    rfl
  · have hbound : ((Nat.pow 2 (128 - 1) : Nat) : Int) = maxMillis + 1 := by decide
    have hhold : hold 128 .multiplication (n : Int) = .error .multiplication := by
      simp only [hold, hbound]
      exact if_neg (by omega)
    rw [checked, hhold, within, if_neg h]
    rfl

theorem split_digits {cs : List Char} (h : (split cs).isNumber = true) :
    ∀ c ∈ (split cs).whole ++ (split cs).fraction, c.isDigit = true := by
  have hwhole : (split cs).whole =
      ((splitSign cs).2.takeWhile isNumberChar).takeWhile (· != '.') := rfl
  have hfraction : (split cs).fraction =
      (((splitSign cs).2.takeWhile isNumberChar).dropWhile (· != '.')).tail := rfl
  have hchars (c : Char) (hc : c ∈ (splitSign cs).2.takeWhile isNumberChar) (hpoint : c ≠ '.') :
      c.isDigit = true := by
    have hnumberChar := List.mem_takeWhile_imp hc
    simpa [isNumberChar, hpoint] using hnumberChar
  intro c hc
  rcases List.mem_append.1 hc with hc | hc
  · rw [hwhole] at hc
    exact hchars c ((List.takeWhile_sublist _).subset hc) (by simpa using List.mem_takeWhile_imp hc)
  · have hnone : '.' ∉ (split cs).fraction := by
      simp only [Parts.isNumber, Bool.and_eq_true, Bool.not_eq_true', List.contains_eq_mem,
        decide_eq_false_iff_not] at h
      exact h.2
    have hpoint : c ≠ '.' := fun heq => hnone (heq ▸ hc)
    rw [hfraction] at hc
    exact hchars c ((List.dropWhile_sublist _).subset (List.mem_of_mem_tail hc)) hpoint

/-- An exponent of ten has 32 bits, and one of two is at most that of the largest suffix. -/
theorem suffixScale_bounds {suffix : List Char} {scale : Scale}
    (h : suffixScale suffix = some scale) :
    -(Text.maxInt32 : Int) - 1 ≤ scale.ten ∧ scale.ten ≤ Text.maxInt32 ∧ scale.two ≤ 60 := by
  unfold suffixScale at h
  split at h
  · next named hnamed =>
    cases h
    unfold namedScale at hnamed
    split at hnamed <;> cases hnamed <;> decide
  · split at h
    · obtain ⟨ten, hten, rfl⟩ := Option.map_eq_some_iff.1 h
      obtain ⟨hlow, hhigh⟩ := Text.readInteger?_bounds hten
      exact ⟨hlow, hhigh, Nat.zero_le 60⟩
    · cases h

theorem guardedDigit_eq {c : Char} (hc : c.isDigit = true) {n : Nat}
    (h : n * 10 + Text.digitValue c ≤ maxMillis) :
    guardedDigit n c = .ok ((n * 10 + Text.digitValue c : Nat) : Int) := by
  have hzero := Text.zero_le_of_isDigit hc
  have hdigit : guardedDigitValue c = .ok (Text.digitValue c : Int) := by
    simp only [guardedDigitValue, Text.digitValue]
    rw [if_pos (by omega), Int.natCast_sub hzero]
  have hproduct : (n : Int) * 10 = ((n * 10 : Nat) : Int) := by omega
  have hsum : ((n * 10 : Nat) : Int) + (Text.digitValue c : Nat) =
      ((n * 10 + Text.digitValue c : Nat) : Int) := by omega
  rw [guardedDigit, hdigit, Except.ok_bind, hproduct, hold_natCast _ (by omega), Except.ok_bind,
    hsum, hold_natCast _ h]

theorem foldlM_guardedDigit {cs : List Char} (hdigits : ∀ c ∈ cs, c.isDigit = true) {n : Nat}
    (h : (n + 1) * 10 ^ cs.length ≤ 10 ^ maxDigits) :
    cs.foldlM guardedDigit (n : Int) =
      .ok ((cs.foldl (fun n c => n * 10 + Text.digitValue c) n : Nat) : Int) := by
  induction cs generalizing n with
  | nil => rfl
  | cons c cs ih =>
    have hc := hdigits c List.mem_cons_self
    have hnine := Text.digitValue_le hc
    have hroom : (n * 10 + Text.digitValue c + 1) * 10 ^ cs.length ≤ 10 ^ maxDigits := by
      calc (n * 10 + Text.digitValue c + 1) * 10 ^ cs.length
          ≤ (n + 1) * 10 * 10 ^ cs.length := Nat.mul_le_mul_right _ (by omega)
        _ = (n + 1) * 10 ^ (c :: cs).length := by
          rw [List.length_cons, Nat.pow_succ', Nat.mul_assoc]
        _ ≤ 10 ^ maxDigits := h
    have hfits : n * 10 + Text.digitValue c ≤ maxMillis := by
      have hone : 1 ≤ 10 ^ cs.length := Nat.one_le_pow _ _ (by decide)
      have hbig : 10 ^ maxDigits ≤ maxMillis := by decide
      have hstep := Nat.le_mul_of_pos_right (n * 10 + Text.digitValue c + 1) hone
      omega
    rw [List.foldlM_cons, guardedDigit_eq hc hfits]
    exact ih (fun d hd => hdigits d (List.mem_cons_of_mem c hd)) hroom

theorem guardedMantissa_eq {cs : List Char} (hnumber : (split cs).isNumber = true)
    (hcount : (split cs).digitCount ≤ maxDigits) :
    (split cs).guardedMantissa = .ok ((split cs).mantissa : Int) := by
  refine foldlM_guardedDigit (split_digits hnumber) ?_
  have hlength : ((split cs).whole ++ (split cs).fraction).length = (split cs).digitCount :=
    List.length_append
  rw [hlength, Nat.zero_add, Nat.one_mul]
  exact Nat.pow_le_pow_right (by decide) hcount

theorem guardedSize_eq {ten : Int} (hlow : -(Text.maxInt32 : Int) ≤ ten)
    (hhigh : ten ≤ Text.maxInt32) : guardedSize ten = .ok (ten.natAbs : Int) := by
  unfold guardedSize
  split
  · rw [hold_exponent _ (by omega) (by omega)]
    exact congrArg Except.ok (by omega)
  · exact congrArg Except.ok (by omega)

theorem guardedSize_least : guardedSize (-(Text.maxInt32 : Int) - 1) = .error .negation := by
  decide

theorem guardedExponent_eq {ten : Int} {places : Nat} (hten : ten.natAbs ≤ maxExponent)
    (hplaces : places ≤ maxDigits) : guardedExponent ten places = .ok (ten + 3 - places) := by
  have hexponent : maxExponent = 30 := rfl
  have hdigits : maxDigits = 30 := rfl
  have hmax : Text.maxInt32 = 2147483647 := rfl
  rw [guardedExponent, hold_exponent _ (by omega) (by omega)]
  exact hold_exponent _ (by omega) (by omega)

theorem guardedShift_eq {two : Nat} (h : two ≤ 60) :
    guardedShift two = .ok ((Nat.pow 2 two : Nat) : Int) := by
  have hvalue : (BitVec.twoPow 128 two).toInt = ((Nat.pow 2 two : Nat) : Int) := by
    rw [BitVec.toInt_twoPow, if_neg (by omega), if_neg (by omega)]
    rfl
  rw [guardedShift, if_pos (by omega), hvalue]

theorem guardedDivide_eq {n d : Nat} (hd : 0 < d) (hn : n ≤ maxMillis) :
    guardedDivide n d = .ok (((n / d : Nat) : Int), ((n % d : Nat) : Int)) := by
  have hpositive : (d : Int) ≠ 0 := by omega
  have hsmall : n / d ≤ maxMillis := Nat.le_trans (Nat.div_le_self n d) hn
  rw [guardedDivide, if_neg hpositive, ← Int.ofNat_tdiv, ← Int.ofNat_tmod, hold_natCast _ hsmall]
  rfl

theorem within_eq_some {n m : Nat} : within n = some m ↔ n = m ∧ m ≤ maxMillis := by
  unfold within
  split
  · next h =>
    constructor
    · rintro ⟨⟩
      exact ⟨rfl, h⟩
    · rintro ⟨rfl, -⟩
      rfl
  · next h =>
    constructor
    · rintro ⟨⟩
    · rintro ⟨rfl, hm⟩
      exact absurd hm h

theorem roundUp_le {n d : Nat} (hd : 2 ≤ d) (hn : n ≤ maxMillis) :
    n / d + (if n % d = 0 then 0 else 1) ≤ maxMillis := by
  have hhalf : n / d ≤ n / 2 := Nat.div_le_div_left hd (by decide)
  have hone : 1 ≤ maxMillis := by decide
  split <;> omega

theorem two_le_pow_natAbs {ten : Int} (h : ¬ 0 ≤ ten) : 2 ≤ Nat.pow 10 ten.natAbs := by
  have hzero : ten.natAbs ≠ 0 := by omega
  exact Nat.le_trans (by decide) (Nat.le_pow (Nat.pos_of_ne_zero hzero))

theorem guardedQuotient_eq {n d : Nat} (hd : 2 ≤ d) (hn : n ≤ maxMillis) :
    guardedQuotient n d = .ok ((n / d + if n % d = 0 then 0 else 1 : Nat) : Int) := by
  rw [guardedQuotient, guardedDivide_eq (by omega) hn, Except.ok_bind]
  have hrest : (((n % d : Nat) : Int) = 0) ↔ n % d = 0 := by omega
  have hsum : ((n / d : Nat) : Int) + (if ((n % d : Nat) : Int) = 0 then 0 else 1) =
      ((n / d + if n % d = 0 then 0 else 1 : Nat) : Int) := by
    by_cases h : n % d = 0
    · rw [if_pos h, if_pos (hrest.2 h)]
      rfl
    · rw [if_neg h, if_neg (mt hrest.1 h)]
      rfl
  dsimp only
  rw [hsum, hold_natCast _ (roundUp_le hd hn)]

/-- Scaling is exact or puts the text out of range: no step of it leaves its width. -/
theorem guardedScaled_eq (mantissa : Nat) {two : Nat} (h : two ≤ 60) (ten : Int) :
    guardedScaled mantissa two ten = .ok ((scaled mantissa two ten).map Int.ofNat) := by
  have hpower : Int.pow 10 ten.natAbs = ((Nat.pow 10 ten.natAbs : Nat) : Int) :=
    (Int.natCast_pow 10 ten.natAbs).symm
  rw [guardedScaled, guardedShift_eq h, Except.ok_bind, ← Int.natCast_mul, hpower,
    checked_natCast, checked_natCast, scaled]
  cases hvalue : within (mantissa * Nat.pow 2 two) with
  | none => rfl
  | some value =>
    cases hscale : within (Nat.pow 10 ten.natAbs) with
    | none => rfl
    | some power =>
      obtain ⟨-, hfits⟩ := within_eq_some.1 hvalue
      obtain ⟨hten, -⟩ := within_eq_some.1 hscale
      simp only [Option.map_some, Option.bind_eq_bind, Option.bind_some]
      by_cases hsign : 0 ≤ ten
      · rw [if_pos hsign, if_pos hsign]
        exact congrArg Except.ok (checked_natCast (value * power))
      · have hbase : 2 ≤ power := hten ▸ two_le_pow_natAbs hsign
        rw [if_neg hsign, if_neg hsign]
        exact congrArg (Except.map some) (guardedQuotient_eq hbase hfits)

theorem scaled_le {mantissa two n : Nat} {ten : Int} (h : scaled mantissa two ten = some n) :
    n ≤ maxMillis := by
  simp only [scaled, Option.bind_eq_bind, Option.bind_eq_some_iff] at h
  obtain ⟨value, hvalue, power, hpower, h⟩ := h
  obtain ⟨-, hfits⟩ := within_eq_some.1 hvalue
  obtain ⟨hten, -⟩ := within_eq_some.1 hpower
  split at h
  · obtain ⟨rfl, hn⟩ := within_eq_some.1 h
    exact hn
  · next hsign =>
    cases h
    exact roundUp_le (hten ▸ two_le_pow_natAbs hsign) hfits

/-- A number of no more digits than are read, whose exponent is the least of 32 bits. -/
def Parts.hasLeastExponent (p : Parts) : Bool :=
  p.isNumber && decide (p.digitCount ≤ maxDigits) &&
    (suffixScale p.suffix).any fun scale => scale.ten = -(Text.maxInt32 : Int) - 1

theorem guardedSign_eq (negative : Bool) {n : Nat} (h : n ≤ maxMillis) :
    guardedSign negative (Int.ofNat n) = .ok (if negative then -(n : Int) else n) := by
  cases negative with
  | false => rfl
  | true =>
    have hcast : Int.ofNat n = (n : Int) := rfl
    exact hold_millis _ (by omega) (by omega)

theorem guardedMillis_of_scale (text : String) {cs : List Char} {scale : Scale}
    (hnumber : (split cs).isNumber = true) (hcount : (split cs).digitCount ≤ maxDigits)
    (hscale : suffixScale (split cs).suffix = some scale)
    (hten : -(Text.maxInt32 : Int) ≤ scale.ten) :
    (split cs).guardedMillis text = .ok ((split cs).millis text) := by
  obtain ⟨-, hhigh, htwo⟩ := suffixScale_bounds hscale
  have hplaces : (split cs).fraction.length ≤ maxDigits :=
    Nat.le_trans (Nat.le_add_left _ _) hcount
  simp only [Parts.guardedMillis, Parts.millis, hnumber, hscale, Nat.not_lt.2 hcount, Bool.not_true,
    Bool.false_eq_true, if_false, guardedMantissa_eq hnumber hcount, guardedSize_eq hten hhigh,
    bind, Except.bind]
  by_cases hsize : maxExponent < scale.ten.natAbs
  · have hsize' : (maxExponent : Int) < scale.ten.natAbs := by omega
    rw [if_pos hsize, if_pos hsize']
    rfl
  · have hsize' : ¬ (maxExponent : Int) < scale.ten.natAbs := by omega
    rw [if_neg hsize, if_neg hsize']
    simp only [guardedExponent_eq (Nat.not_lt.1 hsize) hplaces, guardedScaled_eq _ htwo]
    cases hvalue : scaled (split cs).mantissa scale.two
        (scale.ten + 3 - (split cs).fraction.length) with
    | none => rfl
    | some n =>
      simp only [Option.map_some, guardedSign_eq _ (scaled_le hvalue)]
      rfl

/-- The steps stop at the least exponent, and nowhere else. -/
theorem guardedMillis_eq (text : String) (cs : List Char) :
    (split cs).guardedMillis text =
      if (split cs).hasLeastExponent then .error .negation
      else .ok ((split cs).millis text) := by
  by_cases hnumber : (split cs).isNumber = true
  · by_cases hcount : (split cs).digitCount ≤ maxDigits
    · cases hscale : suffixScale (split cs).suffix with
      | none =>
        simp only [Parts.guardedMillis, Parts.millis, Parts.hasLeastExponent, hnumber, hscale,
          Nat.not_lt.2 hcount, guardedMantissa_eq hnumber hcount, bind, Except.bind, Option.any_none,
          Bool.and_false, Bool.not_true, Bool.false_eq_true, if_false]
        rfl
      | some scale =>
        by_cases hleast : scale.ten = -(Text.maxInt32 : Int) - 1
        · simp only [Parts.guardedMillis, Parts.hasLeastExponent, hnumber, hscale, hcount,
            Nat.not_lt.2 hcount, guardedMantissa_eq hnumber hcount, hleast, guardedSize_least, bind,
            Except.bind, Option.any_some, decide_true, Bool.and_true, Bool.not_true,
            Bool.false_eq_true, if_false, if_true]
        · obtain ⟨hlow, -, -⟩ := suffixScale_bounds hscale
          have hten : -(Text.maxInt32 : Int) ≤ scale.ten := by omega
          rw [guardedMillis_of_scale text hnumber hcount hscale hten, if_neg]
          simp [Parts.hasLeastExponent, hscale, hleast]
    · simp [Parts.guardedMillis, Parts.millis, Parts.hasLeastExponent, hnumber, hcount,
        Nat.lt_of_not_le hcount]
      rfl
  · simp [Parts.guardedMillis, Parts.millis, Parts.hasLeastExponent, hnumber]
    rfl

/-- Reading a text gives an amount or a cause, by steps within their widths, unless the text is a number
with the least exponent: the size of that is out of its width. -/
theorem guardedParse_eq (s : String) :
    guardedParse s =
      if (split (Text.trimChars s.toList)).hasLeastExponent then .error .negation
      else .ok (parse s) := by
  cases htrim : Text.trimChars s.toList with
  | nil =>
    simp only [guardedParse, parse, htrim]
    rfl
  | cons c cs =>
    simp only [guardedParse, parse, htrim, guardedMillis_eq]
    split
    · rfl
    · rfl

/-- The least exponent stops the reading of an amount that is out of range. -/
theorem leastExponent_overflows :
    guardedParse "1e-2147483648" = .error .negation ∧
      parse "1e-2147483648" = .error (.outOfRange "1e-2147483648") := by
  decide +kernel

end PodSizing.Quantity
