import PodSizing.Time.Stamp

/-!
# Interchange timestamps

The time fields of a pod hold instants, written in many ways. Each instant has one plain form here,
in UTC with nine places, so that fields compare as instants.
-/
namespace PodSizing.Time

/-- A separator that may stand behind blanks. -/
private def readSpaced (c : Char) (cs : List Char) : Option (List Char) :=
  readExact c (Text.dropBlanks cs)

private def readDivider : List Char → Option (List Char)
  | c :: rest => if c == 'T' || c == 't' || c == ' ' then some rest else none
  | [] => none

/-- A point and digits, of which the first nine count, or nothing; in nanoseconds. -/
private def readNanos : List Char → Option (Nat × List Char)
  | '.' :: rest =>
    let digits := rest.takeWhile Char.isDigit
    if digits.isEmpty then none
    else
      some (Text.numeralValue ((digits ++ List.replicate 9 '0').take 9), rest.drop digits.length)
  | cs => some (0, cs)

/-- The letter for UTC, its name, or an offset. -/
private def readZone (cs : List Char) : Option (Int × List Char) :=
  match cs with
  | 'Z' :: rest | 'z' :: rest => some (0, rest)
  | u :: t :: c :: rest =>
    if [u, t, c].map Char.toUpper == ['U', 'T', 'C'] then some (0, rest) else readOffset cs
  | _ => none

/-- The plain form of the instant that a text writes. -/
def plainTimestamp? (s : String) : Option String := do
  let (year, cs) ← readYear s.toList
  let (month, cs) ← readField (← readSpaced '-' cs)
  let (day, cs) ← readField (← readSpaced '-' cs)
  let (hour, cs) ← readField (← readDivider cs)
  let (minute, cs) ← readField (← readSpaced ':' cs)
  let (second, cs) ← readField (← readSpaced ':' cs)
  let (nanos, cs) ← readNanos cs
  let (offset, cs) ← readZone (Text.dropBlanks cs)
  let second ← secondOf ⟨year, month, day⟩ hour minute second offset
  if !(Text.dropBlanks cs).isEmpty then none
  else
    some (String.ofList
      (writeDate (.ofDayNumber second.day) ++ 'T' ::
        (Text.paddedNumeral 2 (second.inDay / 3600) ++ ':' ::
          (Text.paddedNumeral 2 (second.inDay / 60 % 60) ++ ':' ::
            (Text.paddedNumeral 2 (second.inDay % 60 + if second.leap then 1 else 0) ++ '.' ::
              (Text.paddedNumeral 9 nanos ++ ['Z']))))))

end PodSizing.Time
