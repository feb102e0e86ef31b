import PodSizing.Quantity

/-!
# Guarded reading of quantities

The arithmetic of reading a quantity with every number held to the width it is kept in: exponents in
32 signed bits, amounts in 128. A step that leaves its width stops the reading, which is not the same
as refusing the text: the caller then has neither an amount nor a cause.
-/
namespace PodSizing

/-- The operation whose result left its width. -/
inductive Overflow where
  | addition
  | subtraction
  | multiplication
  | negation
  | shift
  | division
  | divisionByZero
  deriving DecidableEq, Repr

def Overflow.message : Overflow → String
  | .addition => "attempt to add with overflow"
  | .subtraction => "attempt to subtract with overflow"
  | .multiplication => "attempt to multiply with overflow"
  | .negation => "attempt to negate with overflow"
  | .shift => "attempt to shift left with overflow"
  | .division => "attempt to divide with overflow"
  | .divisionByZero => "attempt to divide by zero"

/-- The result of an operation, if it fits in this many signed bits. -/
def Overflow.hold (bits : Nat) (operation : Overflow) (n : Int) : Except Overflow Int :=
  let bound : Int := Nat.pow 2 (bits - 1)
  if -bound ≤ n ∧ n < bound then .ok n else .error operation

namespace Quantity

open Overflow (hold)

/-- The value of a digit, in a byte without a sign. -/
def guardedDigitValue (c : Char) : Except Overflow Int :=
  let value : Int := c.toNat - '0'.toNat
  if 0 ≤ value then .ok value else .error .subtraction

/-- Reads a digit behind the digits already read. -/
def guardedDigit (n : Int) (c : Char) : Except Overflow Int := do
  let digit ← guardedDigitValue c
  hold 128 .addition ((← hold 128 .multiplication (n * 10)) + digit)

def Parts.guardedMantissa (p : Parts) : Except Overflow Int :=
  (p.whole ++ p.fraction).foldlM guardedDigit 0

/-- The size of an exponent. The least exponent has none in its width. -/
def guardedSize (ten : Int) : Except Overflow Int :=
  if ten < 0 then hold 32 .negation (-ten) else .ok ten

/-- The exponent of an amount in thousandths whose digits are read without their point. -/
def guardedExponent (ten : Int) (places : Nat) : Except Overflow Int := do
  hold 32 .subtraction ((← hold 32 .addition (ten + 3)) - places)

/-- One shifted to the left by so many bits, of which there are 128. -/
def guardedShift (two : Nat) : Except Overflow Int :=
  if two < 128 then .ok (BitVec.twoPow 128 two).toInt else .error .shift

/-- The quotient towards zero, and the remainder. -/
def guardedDivide (n d : Int) : Except Overflow (Int × Int) :=
  if d = 0 then .error .divisionByZero
  else (hold 128 .division (n.tdiv d)).map fun quotient => (quotient, n.tmod d)

/-- A product or power, if it fits: one that does not is no overflow, but puts the text out of
range. -/
def checked (n : Int) : Option Int := (hold 128 .multiplication n).toOption

/-- The quotient rounded up. -/
def guardedQuotient (n d : Int) : Except Overflow Int := do
  let (quotient, rest) ← guardedDivide n d
  hold 128 .addition (quotient + if rest = 0 then 0 else 1)

/-- The scaled amount rounded up, if it is in range. -/
def guardedScaled (mantissa : Int) (two : Nat) (ten : Int) : Except Overflow (Option Int) := do
  let factor ← guardedShift two
  match checked (mantissa * factor), checked (Int.pow 10 ten.natAbs) with
  | some value, some power =>
    if 0 ≤ ten then .ok (checked (value * power)) else (guardedQuotient value power).map some
  | _, _ => .ok none

def guardedSign (negative : Bool) (n : Int) : Except Overflow Int :=
  if negative then hold 128 .negation (-n) else .ok n

/-- The thousandths that a text's parts stand for, by guarded steps. -/
def Parts.guardedMillis (text : String) (p : Parts) :
    Except Overflow (Except QuantityError Int) := do
  if !p.isNumber then return .error (.invalidNumber text)
  if maxDigits < p.digitCount then return .error (.outOfRange text)
  let mantissa ← p.guardedMantissa
  match suffixScale p.suffix with
  | none =>
    return .error (if startsExponent p.suffix then .invalidNumber text else .unknownSuffix text)
  | some scale =>
    if (maxExponent : Int) < (← guardedSize scale.ten) then return .error (.outOfRange text)
    let ten ← guardedExponent scale.ten p.fraction.length
    match ← guardedScaled mantissa scale.two ten with
    | none => return .error (.outOfRange text)
    | some n => return .ok (← guardedSign p.negative n)

/-- Reads a quantity like `parse`, by guarded steps. -/
def guardedParse (s : String) : Except Overflow (Except QuantityError MilliValue) :=
  match Text.trimChars s.toList with
  | [] => .ok (.error .empty)
  | cs => ((split cs).guardedMillis (String.ofList cs)).map (·.map MilliValue.mk)

end Quantity
end PodSizing
