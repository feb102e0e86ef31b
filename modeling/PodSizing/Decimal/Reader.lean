import PodSizing.Decimal

/-!
# Reading decimals

A decimal text stands for the nearest number of 53 bits, of two the even one. A text beyond the
largest of them is infinite.
-/
namespace PodSizing

/-- A number as it is held in 64 bits. -/
inductive FloatingNumber where
  | finite (negative : Bool) (magnitude : BinaryFraction)
  | infinite (negative : Bool)
  | undefined
  deriving DecidableEq, Repr

namespace FloatingNumber

/-- Whether two numbers compare as equal; so do the two zeros. -/
def isSame : (a b : FloatingNumber) → Bool
  | .finite m x, .finite n y => (m = n && x = y) || (x.significand = 0 && y.significand = 0)
  | a, b => a = b

def text : FloatingNumber → String
  | .finite negative x =>
    (if negative then "-" else "") ++ String.ofList (Decimal.ofFraction x).writePlain
  | .infinite negative => if negative then "-inf" else "inf"
  | .undefined => "NaN"

/-- The nearest number to `digits * 10 ^ exponent`. What lies far outside the range is settled by its
number of places. -/
def nearest (negative : Bool) (digits : Nat) (exponent : Int) : FloatingNumber :=
  let places := (Text.numeral digits).length + exponent
  if digits = 0 || places < -330 then .finite negative .zero
  else if 330 < places then .infinite negative
  else
    let ratio :=
      if 0 ≤ exponent then BinaryFraction.ofRatio? (digits * Nat.pow 10 exponent.toNat) 1
      else BinaryFraction.ofRatio? digits (Nat.pow 10 (-exponent).toNat)
    match ratio with
    | some x => .finite negative x
    | none => .infinite negative

/-- An exponent at the end of a text, or nothing. -/
def readExponent? : List Char → Option Int
  | [] => some 0
  | c :: cs =>
    if c ≠ 'e' && c ≠ 'E' then none
    else
      let (negative, digits) := match cs with
        | '-' :: rest => (true, rest)
        | '+' :: rest => (false, rest)
        | rest => (false, rest)
      if digits.isEmpty || !digits.all Char.isDigit then none
      else some (if negative then -(Text.numeralValue digits : Int) else Text.numeralValue digits)

def readUnsigned? (negative : Bool) (cs : List Char) : Option FloatingNumber :=
  let word := String.ofList (cs.map Char.toLower)
  if word = "inf" || word = "infinity" then some (.infinite negative)
  else if word = "nan" then some .undefined
  else
    let whole := cs.takeWhile Char.isDigit
    let behind := cs.drop whole.length
    let fraction := match behind with
      | '.' :: rest => rest.takeWhile Char.isDigit
      | _ => []
    let behind := match behind with
      | '.' :: rest => rest.drop fraction.length
      | _ => behind
    if whole.isEmpty && fraction.isEmpty then none
    else
      (readExponent? behind).map fun exponent =>
        nearest negative (Text.numeralValue (whole ++ fraction)) (exponent - fraction.length)

/-- A sign if any, and digits with a point or an exponent, or the word for what has no digits. -/
def read? : List Char → Option FloatingNumber
  | '-' :: cs => readUnsigned? true cs
  | '+' :: cs => readUnsigned? false cs
  | cs => readUnsigned? false cs

end FloatingNumber
end PodSizing
