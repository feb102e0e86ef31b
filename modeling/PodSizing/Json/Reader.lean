import PodSizing.Json.Basic
import PodSizing.Text.Basic

/-!
# Reading JSON

A reader of the JSON grammar over the remaining characters. It takes every well-formed text,
unpaired surrogates included, and nothing else.
-/
namespace PodSizing.Json
open Text (hexValue?)

def isGap (c : Char) : Bool := c == ' ' || c == '\n' || c == '\t' || c == '\r'

def skipGaps (cs : List Char) : List Char := cs.dropWhile isGap

def hexUnit? (a b c d : Char) : Option Nat := do
  some ((((← hexValue? a) * 16 + (← hexValue? b)) * 16 + (← hexValue? c)) * 16 + (← hexValue? d))

/-- What a letter behind a backslash stands for. -/
def escapedUnit? : Char → Option Nat
  | '"' => some 0x22
  | '\\' => some 0x5C
  | '/' => some 0x2F
  | 'b' => some 0x08
  | 'f' => some 0x0C
  | 'n' => some 0x0A
  | 'r' => some 0x0D
  | 't' => some 0x09
  | _ => none

/-- Reads up to the closing quote: code points, and halves of surrogate pairs from escapes. -/
def readUnits : List Char → Option (List Nat × List Char)
  | [] => none
  | '"' :: rest => some ([], rest)
  | '\\' :: 'u' :: a :: b :: c :: d :: rest => do
    let unit ← hexUnit? a b c d
    let (units, rest) ← readUnits rest
    some (unit :: units, rest)
  | '\\' :: c :: rest => do
    let unit ← escapedUnit? c
    let (units, rest) ← readUnits rest
    some (unit :: units, rest)
  | c :: rest =>
    if c == '\\' || c.toNat < 0x20 then none
    else (readUnits rest).map fun (units, rest) => (c.toNat :: units, rest)

def isHighHalf (u : Nat) : Bool := 0xD800 ≤ u && u < 0xDC00
def isLowHalf (u : Nat) : Bool := 0xDC00 ≤ u && u < 0xE000

/-- The characters that the units write, unless a surrogate lacks its other half. -/
def joinUnits : List Nat → Option (List Char)
  | [] => some []
  | [u] => if isHighHalf u || isLowHalf u then none else some [Char.ofNat u]
  | u :: v :: rest =>
    if isHighHalf u && isLowHalf v then
      (joinUnits rest).map (Char.ofNat (0x10000 + (u - 0xD800) * 0x400 + (v - 0xDC00)) :: ·)
    else if isHighHalf u || isLowHalf u then none
    else (joinUnits (v :: rest)).map (Char.ofNat u :: ·)

def readText (cs : List Char) : Option (Option String × List Char) :=
  (readUnits cs).map fun (units, rest) => ((joinUnits units).map String.ofList, rest)

/-- At least one digit, and what follows the last. -/
def readDigitRun (cs : List Char) : Option (List Char × List Char) :=
  match cs.span Char.isDigit with
  | ([], _) => none
  | run => some run

def readFraction : List Char → Option (List Char × List Char)
  | '.' :: rest => readDigitRun rest
  | rest => some ([], rest)

def readExponent : List Char → Option (Option Int × List Char)
  | e :: rest =>
    if e == 'e' || e == 'E' then
      let (negative, rest) : Bool × List Char :=
        match rest with
        | '-' :: rest => (true, rest)
        | '+' :: rest => (false, rest)
        | rest => (false, rest)
      (readDigitRun rest).map fun (digits, rest) =>
        let n : Int := Text.numeralValue digits
        (some (if negative then -n else n), rest)
    else some (none, e :: rest)
  | [] => some (none, [])

/-- The number with that sign, those digits before and behind the point, and that exponent. -/
def numberOf (negative : Bool) (whole fraction : List Char) (exponent : Option Int) : Number :=
  let n : Int := Text.numeralValue (whole ++ fraction)
  let signed := if negative then -n else n
  if fraction.isEmpty && exponent.isNone && !(negative && n == 0)
      && -(Text.maxInt64 : Int) - 1 ≤ signed && signed ≤ Text.maxNat64 then .whole signed
  else .real signed (exponent.getD 0 - fraction.length)

def readNumber (cs : List Char) : Option (Number × List Char) := do
  let (negative, cs) : Bool × List Char :=
    match cs with
    | '-' :: rest => (true, rest)
    | rest => (false, rest)
  let (whole, cs) ← readDigitRun cs
  if whole.head? == some '0' && 1 < whole.length then none
  else
    let (fraction, cs) ← readFraction cs
    let (exponent, cs) ← readExponent cs
    some (numberOf negative whole fraction exponent, cs)

mutual

/-- Reads one value. The fuel bounds the nesting and the length of lists. -/
def readValue : Nat → List Char → Option (Json × List Char)
  | 0, _ => none
  | fuel + 1, cs =>
    match skipGaps cs with
    | 'n' :: 'u' :: 'l' :: 'l' :: rest => some (.null, rest)
    | 't' :: 'r' :: 'u' :: 'e' :: rest => some (.bool true, rest)
    | 'f' :: 'a' :: 'l' :: 's' :: 'e' :: rest => some (.bool false, rest)
    | '"' :: rest => (readText rest).map fun (text, rest) => (.str text, rest)
    | '[' :: rest =>
      match skipGaps rest with
      | ']' :: rest => some (.arr [], rest)
      | rest => (readItems fuel rest).map fun (items, rest) => (.arr items, rest)
    | '{' :: rest =>
      match skipGaps rest with
      | '}' :: rest => some (.obj [], rest)
      | rest => (readMembers fuel rest).map fun (members, rest) => (.obj members, rest)
    | rest => (readNumber rest).map fun (n, rest) => (.num n, rest)

/-- Reads the items of a list that has one, through its closing bracket. -/
def readItems : Nat → List Char → Option (List Json × List Char)
  | 0, _ => none
  | fuel + 1, cs => do
    let (item, rest) ← readValue fuel cs
    match skipGaps rest with
    | ',' :: rest => (readItems fuel rest).map fun (items, rest) => (item :: items, rest)
    | ']' :: rest => some ([item], rest)
    | _ => none

/-- Reads the members of a record that has one, through its closing brace. -/
def readMembers : Nat → List Char → Option (List (Option String × Json) × List Char)
  | 0, _ => none
  | fuel + 1, cs =>
    match skipGaps cs with
    | '"' :: rest => do
      let (name, rest) ← readText rest
      match skipGaps rest with
      | ':' :: rest =>
        let (value, rest) ← readValue fuel rest
        match skipGaps rest with
        | ',' :: rest =>
          (readMembers fuel rest).map fun (members, rest) => ((name, value) :: members, rest)
        | '}' :: rest => some ([(name, value)], rest)
        | _ => none
      | _ => none
    | _ => none

end

/-- The value that a whole text writes. -/
def readChars (cs : List Char) : Option Json :=
  match readValue (2 * cs.length + 2) cs with
  | some (value, rest) => if (skipGaps rest).isEmpty then some value else none
  | none => none

def parse? (s : String) : Option Json := readChars s.toList

end PodSizing.Json
