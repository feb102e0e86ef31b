import PodSizing.Text.Basic

/-!
# Shortest decimals

The decimal with the fewest digits among those nearer to a binary fraction than to its neighbours;
of several, the nearest. All comparisons are between natural numbers.
-/
namespace PodSizing

/-- The number `digits * 10 ^ exponent`. -/
structure Decimal where
  digits : Nat
  exponent : Int
  deriving DecidableEq, Repr

/-- The number `significand * 2 ^ exponent` in 53 bits. The neighbour below is at half the distance
where the significand is the least of its length. -/
structure BinaryFraction where
  significand : Nat
  exponent : Int
  halfGapBelow : Bool
  deriving DecidableEq, Repr

namespace BinaryFraction

def zero : BinaryFraction := ⟨0, -1074, false⟩

/-- A quotient of powers: `base ^ e` over one, or one over it. -/
private def power (base : Nat) (e : Int) : Nat × Nat :=
  if 0 ≤ e then (base.pow e.toNat, 1) else (1, base.pow (-e).toNat)

/-- The exponent at which a ratio has 53 bits before its point, or the least exponent there is. -/
def exponentOf (num den : Nat) : Int :=
  let e : Int := max (-1074) ((num.log2 : Int) - den.log2 - 53)
  let (twos, halves) := power 2 e
  if Nat.pow 2 53 ≤ num * halves / (den * twos) then e + 1 else e

/-- The number of 53 bits nearest to a ratio above zero, the even one of two; none if that would be
larger than all there are. -/
def ofRatio? (num den : Nat) : Option BinaryFraction :=
  let e := exponentOf num den
  let (twos, halves) := power 2 e
  let below := num * halves / (den * twos)
  let excess := 2 * (num * halves % (den * twos))
  let goesUp := den * twos < excess || (excess = den * twos && below % 2 = 1)
  let significand := if goesUp then below + 1 else below
  let (significand, e) :=
    if significand = Nat.pow 2 53 then (Nat.pow 2 52, e + 1) else (significand, e)
  if 971 < e then none else some ⟨significand, e, significand = Nat.pow 2 52 && -1074 < e⟩

/-- The ratio that a number stands for. -/
def ratio (x : BinaryFraction) : Nat × Nat :=
  let (num, den) := power 2 x.exponent
  (x.significand * num, den)

/-- The number nearest to a ratio, which may be zero. -/
def nearest? (num den : Nat) : Option BinaryFraction :=
  if num = 0 then some zero else ofRatio? num den

/-- The number nearest to a sum. -/
def add? (x y : BinaryFraction) : Option BinaryFraction :=
  let (a, b) := x.ratio
  let (c, d) := y.ratio
  nearest? (a * d + c * b) (b * d)

/-- The number nearest to a part. -/
def divide? (x : BinaryFraction) (parts : Nat) : Option BinaryFraction :=
  let (num, den) := x.ratio
  nearest? num (den * parts)

/-- The multiple of `10 ^ k` that reads back as the number and lies nearest to it. -/
def onGrid (x : BinaryFraction) (k : Int) : Option Decimal :=
  let (num, den) := power 2 (x.exponent - 2)
  let (tens, tenths) := power 10 k
  let unit := num * tenths
  let step := den * tens
  let middle := 4 * x.significand * unit
  let low := middle - (if x.halfGapBelow then 1 else 2) * unit
  let high := middle + 2 * unit
  let closed := x.significand % 2 == 0
  let hit (n : Nat) : Bool :=
    if closed then low ≤ n * step && n * step ≤ high else low < n * step && n * step < high
  let below := middle / step
  let aboveIsNearer := (below + 1) * step - middle < middle - below * step
  if hit below && !(hit (below + 1) && aboveIsNearer) then some ⟨below, k⟩
  else if hit (below + 1) then some ⟨below + 1, k⟩
  else none

/-- Tries the powers of ten from `k` down. -/
def shortestFrom (x : BinaryFraction) : Nat → Int → Decimal
  | 0, k => ⟨0, k⟩
  | fuel + 1, k => (x.onGrid k).getD (shortestFrom x fuel (k - 1))

/-- The shortest decimal of a number above zero. -/
def shortest (x : BinaryFraction) : Decimal :=
  let (num, den) := power 2 x.exponent
  let start := (Text.numeral (x.significand * num / den)).length
  x.shortestFrom (start + 330) start

end BinaryFraction

namespace Decimal

/-- Written in full, with a point and at least one digit on either side. -/
def write (d : Decimal) : List Char :=
  if 0 ≤ d.exponent then Text.numeral (d.digits * Nat.pow 10 d.exponent.toNat) ++ ['.', '0']
  else
    let places := (-d.exponent).toNat
    Text.numeral (d.digits / Nat.pow 10 places) ++
      '.' :: Text.paddedNumeral places (d.digits % Nat.pow 10 places)

/-- Written in full, with a point only before a fraction. -/
def writePlain (d : Decimal) : List Char :=
  if 0 ≤ d.exponent then Text.numeral (d.digits * Nat.pow 10 d.exponent.toNat) else d.write

/-- The shortest decimal of a binary fraction. -/
def ofFraction (x : BinaryFraction) : Decimal := if x.significand = 0 then ⟨0, 0⟩ else x.shortest

end Decimal
end PodSizing
