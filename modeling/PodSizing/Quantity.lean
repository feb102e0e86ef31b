import PodSizing.Text.Basic
import PodSizing.Text.Quoted

/-!
# Resource quantities

A quantity is a decimal number with a suffix: a binary one (`Ki` to `Ei`), a decimal one (`n` to
`E`) or an exponent of ten. Texts that differ may stand for one amount, so amounts are compared as
thousandths of the unit, rounded away from zero and held in 128 signed bits.
-/
namespace PodSizing

/-- An amount in thousandths of its unit. -/
structure MilliValue where
  millis : Int
  deriving DecidableEq, Repr, Inhabited

namespace MilliValue

def isZero (v : MilliValue) : Bool := v.millis == 0

instance : LT MilliValue := ⟨fun a b => a.millis < b.millis⟩

instance (a b : MilliValue) : Decidable (a < b) := inferInstanceAs (Decidable (a.millis < b.millis))

def compare (a b : MilliValue) : Ordering := Ord.compare a.millis b.millis

/-- The amount as a quantity: its thousandths with the suffix for thousandths. -/
def display (v : MilliValue) : String := String.ofList (Text.signedNumeral v.millis ++ ['m'])

end MilliValue

/-- Why a text is no quantity. Each cause but the first carries the text without outer blanks. -/
inductive QuantityError where
  | empty
  | invalidNumber (text : String)
  | unknownSuffix (text : String)
  | outOfRange (text : String)
  deriving DecidableEq, Repr

def QuantityError.message : QuantityError → String
  | .empty => "quantity is empty"
  | .invalidNumber text => "quantity " ++ Text.quote text ++ " does not start with a valid number"
  | .unknownSuffix text => "quantity " ++ Text.quote text ++ " has an unrecognised suffix"
  | .outOfRange text => "quantity " ++ Text.quote text ++ " is out of range"

namespace Quantity

/-- A power of ten times a power of two. -/
structure Scale where
  ten : Int
  two : Nat
  deriving DecidableEq, Repr

/-- The suffixes that name a scale. -/
def namedScale : List Char → Option Scale
  | [] => some ⟨0, 0⟩
  | ['n'] => some ⟨-9, 0⟩
  | ['u'] => some ⟨-6, 0⟩
  | ['m'] => some ⟨-3, 0⟩
  | ['k'] => some ⟨3, 0⟩
  | ['M'] => some ⟨6, 0⟩
  | ['G'] => some ⟨9, 0⟩
  | ['T'] => some ⟨12, 0⟩
  | ['P'] => some ⟨15, 0⟩
  | ['E'] => some ⟨18, 0⟩
  | ['K', 'i'] => some ⟨0, 10⟩
  | ['M', 'i'] => some ⟨0, 20⟩
  | ['G', 'i'] => some ⟨0, 30⟩
  | ['T', 'i'] => some ⟨0, 40⟩
  | ['P', 'i'] => some ⟨0, 50⟩
  | ['E', 'i'] => some ⟨0, 60⟩
  | _ => none

/-- Whether a suffix is read as an exponent when it names no scale. -/
def startsExponent : List Char → Bool
  | 'e' :: _ | 'E' :: _ => true
  | _ => false

/-- A suffix's scale: a named one, or an exponent of ten in 32 signed bits. -/
def suffixScale (suffix : List Char) : Option Scale :=
  match namedScale suffix with
  | some scale => some scale
  | none =>
    if startsExponent suffix then
      (Text.readInteger? Text.maxInt32 suffix.tail).map fun ten => ⟨ten, 0⟩
    else none

/-- Whether a character belongs to the number in front of the suffix. -/
def isNumberChar (c : Char) : Bool := c.isDigit || c == '.'

/-- A quantity's text taken apart: what stands before the first point, after it, and behind the
number. -/
structure Parts where
  negative : Bool
  whole : List Char
  fraction : List Char
  suffix : List Char
  deriving DecidableEq, Repr

def splitSign : List Char → Bool × List Char
  | '-' :: cs => (true, cs)
  | '+' :: cs => (false, cs)
  | cs => (false, cs)

def split (cs : List Char) : Parts :=
  let (negative, unsigned) := splitSign cs
  let number := unsigned.takeWhile isNumberChar
  { negative
    whole := number.takeWhile (· != '.')
    fraction := (number.dropWhile (· != '.')).tail
    suffix := unsigned.dropWhile isNumberChar }

namespace Parts

/-- A number has a digit, and at most one point. -/
def isNumber (p : Parts) : Bool :=
  !(p.whole.isEmpty && p.fraction.isEmpty) && !p.fraction.contains '.'

def digitCount (p : Parts) : Nat := p.whole.length + p.fraction.length

def mantissa (p : Parts) : Nat := Text.numeralValue (p.whole ++ p.fraction)

end Parts

def maxDigits : Nat := 30
def maxExponent : Nat := 30

/-- The largest value of 128 signed bits. -/
def maxMillis : Nat := Nat.pow 2 127 - 1

/-- A number up to the largest value. -/
def within (n : Nat) : Option Nat := if n ≤ maxMillis then some n else none

/-- `mantissa * 2 ^ two * 10 ^ ten` rounded up, where no step on the way may leave 127 bits. -/
def scaled (mantissa two : Nat) (ten : Int) : Option Nat := do
  let value ← within (mantissa * Nat.pow 2 two)
  let power ← within (Nat.pow 10 ten.natAbs)
  if 0 ≤ ten then within (value * power)
  else some (value / power + if value % power = 0 then 0 else 1)

/-- The thousandths that a text's parts stand for. -/
def Parts.millis (text : String) (p : Parts) : Except QuantityError Int :=
  if !p.isNumber then .error (.invalidNumber text)
  else if maxDigits < p.digitCount then .error (.outOfRange text)
  else
    match suffixScale p.suffix with
    | none => .error (if startsExponent p.suffix then .invalidNumber text else .unknownSuffix text)
    | some scale =>
      if maxExponent < scale.ten.natAbs then .error (.outOfRange text)
      else
        match scaled p.mantissa scale.two (scale.ten + 3 - p.fraction.length) with
        | none => .error (.outOfRange text)
        | some n => .ok (if p.negative then -(n : Int) else n)

/-- Reads a quantity, ignoring outer blanks. -/
def parse (s : String) : Except QuantityError MilliValue :=
  match Text.trimChars s.toList with
  | [] => .error .empty
  | cs => ((split cs).millis (String.ofList cs)).map MilliValue.mk

def parse? (s : String) : Option MilliValue := (parse s).toOption

end Quantity
end PodSizing
