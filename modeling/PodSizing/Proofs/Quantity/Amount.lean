import Mathlib.Algebra.Order.Field.Power
import Mathlib.Data.Rat.Floor
import PodSizing.Proofs.Quantity.Grammar

/-!
# The amounts that quantities stand for

A quantity writes an exact rational number of thousandths, which is rounded away from zero. Scaling gives
that amount if it fits in 128 bits, and if the numbers on the way to it do: the product by a power of two
is formed before the digits behind the point are divided off, and so is the divisor.
-/
namespace PodSizing.Quantity
open Text (signed)

def Parts.exact (p : Parts) (scale : Scale) : ℚ :=
  p.mantissa * 2 ^ scale.two * 10 ^ (scale.ten + 3 - p.fraction.length)

/-- The thousandths rounded away from zero. -/
def Parts.rounded (p : Parts) (scale : Scale) : Int := signed p.negative ⌈p.exact scale⌉

/-- An amount fits in 128 signed bits. -/
def InRange (n : Int) : Prop := -2 ^ 127 ≤ n ∧ n < 2 ^ 127

instance (n : Int) : Decidable (InRange n) := inferInstanceAs (Decidable (_ ∧ _))

/-- No number on the way to an amount is out of range, nor is the amount without its sign. -/
structure Parts.StaysInRange (p : Parts) (scale : Scale) : Prop where
  product : p.mantissa * 2 ^ scale.two < 2 ^ 127
  divisor : -38 ≤ scale.ten + 3 - p.fraction.length
  size : p.rounded scale ≠ -2 ^ 127

theorem ceil_div (n : Nat) {d : Nat} (hd : 0 < d) :
    ⌈(n : ℚ) / d⌉ = ((n / d + if n % d = 0 then 0 else 1 : Nat) : Int) := by
  have hsign : (d : Int).sign = 1 := Int.sign_eq_one_of_pos (by omega)
  have hdvd : ((d : Int) ∣ n) ↔ n % d = 0 := by
    rw [Int.natCast_dvd_natCast, Nat.dvd_iff_mod_eq_zero]
  rw [Rat.ceil_natCast_div_natCast, Int.neg_ediv, hsign]
  by_cases h : n % d = 0
  · rw [if_pos (hdvd.2 h), if_pos h]
    omega
  · rw [if_neg (mt hdvd.1 h), if_neg h]
    omega

theorem ceil_mul_zpow (n : Nat) (ten : Int) :
    ⌈(n : ℚ) * 10 ^ ten⌉ =
      ((if 0 ≤ ten then n * 10 ^ ten.natAbs
        else n / 10 ^ ten.natAbs + if n % 10 ^ ten.natAbs = 0 then 0 else 1 : Nat) : Int) := by
  by_cases h : 0 ≤ ten
  · have hten : ten = (ten.natAbs : Int) := by omega
    have hvalue : (n : ℚ) * 10 ^ ten = ((n * 10 ^ ten.natAbs : Nat) : ℚ) := by
      conv_lhs => rw [hten, zpow_natCast]
      push_cast
      rfl
    rw [hvalue, Int.ceil_natCast, if_pos h]
  · have hten : ten = -(ten.natAbs : Int) := by omega
    have hvalue : (n : ℚ) * 10 ^ ten = (n : ℚ) / ((10 ^ ten.natAbs : Nat) : ℚ) := by
      conv_lhs => rw [hten, zpow_neg, zpow_natCast]
      push_cast
      rfl
    rw [hvalue, ceil_div n (Nat.pow_pos (by decide)), if_neg h]

theorem mul_two_pow_cast (mantissa two : Nat) :
    (mantissa : ℚ) * 2 ^ two = ((mantissa * 2 ^ two : Nat) : ℚ) := by
  push_cast
  rfl

/-- What is scaled is the exact value rounded up, if no number on the way to it leaves the range. -/
theorem scaled_eq_some_iff {mantissa two n : Nat} {ten : Int} :
    scaled mantissa two ten = some n ↔
      (n : Int) = ⌈(mantissa : ℚ) * 2 ^ two * 10 ^ ten⌉ ∧
        mantissa * 2 ^ two ≤ maxMillis ∧ 10 ^ ten.natAbs ≤ maxMillis ∧ n ≤ maxMillis := by
  rw [mul_two_pow_cast, ceil_mul_zpow, Int.ofNat_inj]
  simp only [scaled, Option.bind_eq_bind, Option.bind_eq_some_iff, within_eq_some, Nat.pow_eq]
  by_cases hten : 0 ≤ ten
  · simp only [hten, if_true, within_eq_some]
    constructor
    · rintro ⟨_, ⟨rfl, hproduct⟩, _, ⟨rfl, hpower⟩, rfl, hn⟩
      exact ⟨rfl, hproduct, hpower, hn⟩
    · rintro ⟨hn, hproduct, hpower, hfits⟩
      exact ⟨_, ⟨rfl, hproduct⟩, _, ⟨rfl, hpower⟩, hn.symm, hfits⟩
  · -- a quotient needs no bound of its own: it is smaller than the product that it is formed from
    simp only [hten, if_false, Option.some.injEq]
    constructor
    · rintro ⟨_, ⟨rfl, hproduct⟩, _, ⟨rfl, hpower⟩, rfl⟩
      exact ⟨rfl, hproduct, hpower, roundUp_le (two_le_pow_natAbs hten) hproduct⟩
    · rintro ⟨hn, hproduct, hpower, _⟩
      exact ⟨_, ⟨rfl, hproduct⟩, _, ⟨rfl, hpower⟩, hn.symm⟩

theorem ten_pow_le_iff {k : Nat} : 10 ^ k ≤ maxMillis ↔ k ≤ 38 := by
  constructor
  · intro h
    by_contra hk
    have hpow : 10 ^ 39 ≤ 10 ^ k := Nat.pow_le_pow_right (by decide) (by omega)
    have hbig : maxMillis < 10 ^ 39 := by decide
    omega
  · intro h
    exact Nat.le_trans (Nat.pow_le_pow_right (by decide) h) (by decide : 10 ^ 38 ≤ maxMillis)

theorem Parts.exact_nonneg (p : Parts) (scale : Scale) : 0 ≤ p.exact scale := by
  unfold Parts.exact
  positivity

theorem signed_inRange_iff (negative : Bool) (n : Nat) :
    InRange (signed negative n) ∧ signed negative n ≠ -2 ^ 127 ↔ n ≤ maxMillis := by
  have hmax : maxMillis = 2 ^ 127 - 1 := by decide
  cases negative <;> simp only [signed, InRange, Bool.false_eq_true, if_false, if_true] <;> omega

theorem Parts.rounded_eq (p : Parts) (scale : Scale) :
    p.rounded scale = signed p.negative (⌈p.exact scale⌉.toNat : Int) := by
  rw [Parts.rounded, Int.toNat_of_nonneg (Int.ceil_nonneg (p.exact_nonneg scale))]

/-- In the limits for digits and exponent, the amount is scaled just where it and the numbers on the way to
it stay in range. -/
theorem Admitted.scaled_iff {cs : List Char} {p : Parts} {scale : Scale}
    (h : Admitted cs p scale) {n : Nat} :
    scaled p.mantissa scale.two (scale.ten + 3 - p.fraction.length) = some n ↔
      n = ⌈p.exact scale⌉.toNat ∧ InRange (p.rounded scale) ∧ p.StaysInRange scale := by
  have hmax : maxMillis = 2 ^ 127 - 1 := by decide
  have hexponent : scale.ten.natAbs ≤ 30 := h.exponent
  have hceil := Int.toNat_of_nonneg (Int.ceil_nonneg (p.exact_nonneg scale))
  have hrange := signed_inRange_iff p.negative ⌈p.exact scale⌉.toNat
  rw [← p.rounded_eq scale] at hrange
  have hexact : (n : Int) = ⌈(p.mantissa : ℚ) * 2 ^ scale.two *
      10 ^ (scale.ten + 3 - p.fraction.length)⌉ ↔ n = ⌈p.exact scale⌉.toNat := by
    rw [Parts.exact] at hceil ⊢
    omega
  rw [scaled_eq_some_iff, hexact, ten_pow_le_iff]
  constructor
  · rintro ⟨rfl, hproduct, hpower, hfits⟩
    obtain ⟨hamount, hsize⟩ := hrange.2 hfits
    exact ⟨rfl, hamount, by omega, by omega, hsize⟩
  · rintro ⟨rfl, hamount, hproduct, hdivisor, hsize⟩
    exact ⟨rfl, by omega, by omega, hrange.1 ⟨hamount, hsize⟩⟩

end PodSizing.Quantity
