/-!
# Blanks, parts and numerals

Texts without white space at either end, the parts of a text between its separators, and whole numbers
written with ASCII digits. A bounded reading of a number stops at the first character that is no digit or
takes the number past its bound, whichever comes first.
-/
namespace PodSizing.Text

/-- The characters with the Unicode property White_Space: closed ranges of code points, ascending and
apart. -/
def blankRanges : List (Nat × Nat) :=
  [(0x09, 0x0D), (0x20, 0x20), (0x85, 0x85), (0xA0, 0xA0), (0x1680, 0x1680), (0x2000, 0x200A),
   (0x2028, 0x2029), (0x202F, 0x202F), (0x205F, 0x205F), (0x3000, 0x3000)]

/-- Whether a code point lies in one of the closed ranges. -/
def inRanges (ranges : List (Nat × Nat)) (n : Nat) : Bool :=
  ranges.any fun r => r.1 ≤ n && n ≤ r.2

def isBlank (c : Char) : Bool := inRanges blankRanges c.toNat

def dropBlanks (cs : List Char) : List Char := cs.dropWhile isBlank

/-- The text between the leading and the trailing blanks. -/
def trimChars (cs : List Char) : List Char := (dropBlanks (dropBlanks cs).reverse).reverse

def trim (s : String) : String := String.ofList (trimChars s.toList)

/-- What lies between the separators of a text: one part more than there are separators. -/
def splitAt (separator : Char) : List Char → List (List Char)
  | [] => [[]]
  | c :: cs =>
    if c = separator then [] :: splitAt separator cs
    else
      match splitAt separator cs with
      | part :: parts => (c :: part) :: parts
      | [] => [[c]]

def digitValue (c : Char) : Nat := c.toNat - '0'.toNat

/-- The value of a hexadecimal digit. -/
def hexValue? (c : Char) : Option Nat :=
  if c.isDigit then some (digitValue c)
  else if 'a' ≤ c && c ≤ 'f' then some (c.toNat - 'a'.toNat + 10)
  else if 'A' ≤ c && c ≤ 'F' then some (c.toNat - 'A'.toNat + 10)
  else none

/-- The number that the digits write, most significant first. -/
def numeralValue (cs : List Char) : Nat := cs.foldl (fun n c => n * 10 + digitValue c) 0

def numeral (n : Nat) : List Char := Nat.toDigits 10 n

/-- The numeral with zeros in front up to the given width. -/
def paddedNumeral (width n : Nat) : List Char :=
  List.replicate (width - (numeral n).length) '0' ++ numeral n

def signedNumeral (n : Int) : List Char :=
  if n < 0 then '-' :: numeral n.natAbs else numeral n.natAbs

/-- Why a text is no numeral within a bound. -/
inductive NumeralError where
  | empty
  | notDigit
  | tooLarge
  deriving DecidableEq, Repr

def NumeralError.message : NumeralError → String
  | .empty => "cannot parse integer from empty string"
  | .notDigit => "invalid digit found in string"
  | .tooLarge => "number too large to fit in target type"

/-- Reads further digits behind a number already read. -/
def readDigits (bound : Nat) : Nat → List Char → Except NumeralError Nat
  | n, [] => .ok n
  | n, c :: cs =>
    if !c.isDigit then .error .notDigit
    else if bound < n * 10 + digitValue c then .error .tooLarge
    else readDigits bound (n * 10 + digitValue c) cs

/-- A natural number up to `bound`, with an optional plus sign. -/
def readNatural (bound : Nat) : List Char → Except NumeralError Nat
  | [] => .error .empty
  | ['+'] => .error .notDigit
  | '+' :: cs => readDigits bound 0 cs
  | cs => readDigits bound 0 cs

/-- A whole number between `-bound - 1` and `bound`, with an optional sign. -/
def readInteger? (bound : Nat) : List Char → Option Int
  | [] => none
  | ['+'] | ['-'] => none
  | '-' :: cs => (readDigits (bound + 1) 0 cs).toOption.map fun n => -(n : Int)
  | '+' :: cs => (readDigits bound 0 cs).toOption.map Int.ofNat
  | cs => (readDigits bound 0 cs).toOption.map Int.ofNat

def maxNat16 : Nat := Nat.pow 2 16 - 1
def maxNat32 : Nat := Nat.pow 2 32 - 1
def maxNat64 : Nat := Nat.pow 2 64 - 1
def maxInt32 : Nat := Nat.pow 2 31 - 1
def maxInt64 : Nat := Nat.pow 2 63 - 1

end PodSizing.Text
