import PodSizing.Text.Basic
import PodSizing.Time.Calendar

/-!
# Time stamps

Two written forms of a moment in UTC: to the millisecond, and to the second. The reader takes the
first with any offset, and leaves room for blanks, short fields and leap seconds.
-/
namespace PodSizing.Time

/-- Four digits for the years 0 to 9999; any other year has a sign. -/
def writeYear (y : Int) : List Char :=
  if 0 ≤ y ∧ y ≤ 9999 then Text.paddedNumeral 4 y.toNat
  else (if y < 0 then '-' else '+') :: Text.paddedNumeral 4 y.natAbs

def writeDate (d : Date) : List Char :=
  writeYear d.year ++ '-' :: (Text.paddedNumeral 2 d.month ++ '-' :: Text.paddedNumeral 2 d.day)

def writeTimeOfDay (second : Nat) : List Char :=
  Text.paddedNumeral 2 (second / 3600) ++ ':' ::
    (Text.paddedNumeral 2 (second / 60 % 60) ++ ':' :: Text.paddedNumeral 2 (second % 60))

def writeToSecond (t : Moment) : List Char :=
  writeDate (.ofDayNumber t.day) ++ 'T' :: writeTimeOfDay t.second

def utcOffset : List Char := ['+', '0', '0', '0', '0']

/-- To the millisecond. -/
def stamp (t : Instant) : String :=
  String.ofList
    (writeToSecond t.moment ++ '.' :: (Text.paddedNumeral 3 t.moment.milli ++ utcOffset))

/-- To the second. -/
def secondStamp (t : Instant) : String := String.ofList (writeToSecond t.moment ++ utcOffset)

def readExact (c : Char) : List Char → Option (List Char)
  | d :: rest => if d = c then some rest else none
  | [] => none

/-- A number of one to `most` digits. -/
def readDigits (most : Nat) (cs : List Char) : Option (Nat × List Char) :=
  let digits := (cs.take most).takeWhile Char.isDigit
  if digits.isEmpty then none else some (Text.numeralValue digits, cs.drop digits.length)

/-- A field of at most two digits, blanks in front left out. -/
def readField (cs : List Char) : Option (Nat × List Char) := readDigits 2 (Text.dropBlanks cs)

/-- A year: at most four digits, or a sign and any number of them. -/
def readYear (cs : List Char) : Option (Int × List Char) :=
  match Text.dropBlanks cs with
  | '-' :: rest => (readDigits rest.length rest).map fun (n, rest) => (-(n : Int), rest)
  | '+' :: rest => (readDigits rest.length rest).map fun (n, rest) => ((n : Int), rest)
  | cs => (readDigits 4 cs).map fun (n, rest) => ((n : Int), rest)

/-- A point and three digits, or nothing. -/
def readMillis : List Char → Option (Nat × List Char)
  | '.' :: a :: b :: c :: rest =>
    if a.isDigit && b.isDigit && c.isDigit then some (Text.numeralValue [a, b, c], rest) else none
  | '.' :: _ => none
  | cs => some (0, cs)

def isOffsetGap (c : Char) : Bool := c == ':' || Text.isBlank c

/-- Hours and minutes of an offset, two digits each, in seconds; and what follows them. -/
def readOffsetSize : List Char → Option (Int × List Char)
  | a :: b :: rest =>
    match rest.dropWhile isOffsetGap with
    | c :: d :: rest =>
      if a.isDigit && b.isDigit && c.isDigit && d.isDigit then
        let hours := Text.numeralValue [a, b]
        let minutes := Text.numeralValue [c, d]
        if hours < 24 && minutes < 60 then some ((hours * 3600 + minutes * 60 : Nat), rest)
        else none
      else none
    | _ => none
  | _ => none

/-- The signed seconds by which a clock is ahead of UTC. -/
def readOffset : List Char → Option (Int × List Char)
  | '+' :: rest => readOffsetSize rest
  | '-' :: rest | '\u2212' :: rest =>
    (readOffsetSize rest).map fun (seconds, rest) => (-seconds, rest)
  | _ => none

/-- A second of UTC: its day, its place in the day, and whether it is followed by the leap second
that is meant. -/
structure Second where
  day : Int
  inDay : Nat
  leap : Bool
  deriving DecidableEq, Repr

/-- The second that a clock ahead of UTC by `offset` seconds calls by that date and time. -/
def secondOf (date : Date) (hour minute second : Nat) (offset : Int) : Option Second :=
  if date.exists? && minYear ≤ date.year && date.year ≤ maxYear && hour < 24 && minute < 60
      && second ≤ 60 then
    let inDay : Int := (hour * 3600 + minute * 60 + (if second = 60 then 59 else second) : Nat)
    let day := date.dayNumber + (inDay - offset) / 86400
    if supportsDay day then some ⟨day, ((inDay - offset) % 86400).toNat, second == 60⟩ else none
  else none

def readStamp? (s : String) : Option Moment := do
  let (year, cs) ← readYear s.toList
  let (month, cs) ← readField (← readExact '-' cs)
  let (day, cs) ← readField (← readExact '-' cs)
  let (hour, cs) ← readField (← readExact 'T' cs)
  let (minute, cs) ← readField (← readExact ':' cs)
  let (second, cs) ← readField (← readExact ':' cs)
  let (milli, cs) ← readMillis cs
  let (offset, cs) ← readOffset (Text.dropBlanks cs)
  let second ← secondOf ⟨year, month, day⟩ hour minute second offset
  if cs.isEmpty then some ⟨second.day, second.inDay, milli + if second.leap then 1000 else 0⟩
  else none

/-- The milliseconds from a stamp to a clock's reading, if the stamp reads and is not later. -/
def elapsed? (stamp : String) (now : Instant) : Option Nat :=
  match readStamp? stamp with
  | some start => if 0 ≤ now.moment.since start then some (now.moment.since start).toNat else none
  | none => none

end PodSizing.Time
