/-!
# Civil dates and moments

Days are numbered from 1970-01-01. Years are counted from March, so that a leap day ends its year,
and split into blocks of 400, 100, 4 and 1 years whose lengths in days are fixed. A moment splits the
milliseconds that a clock shows into day, second and millisecond, and can lie in a leap second, whose
milliseconds are counted on from those of the second before it.
-/
namespace PodSizing.Time

structure Date where
  year : Int
  month : Nat
  day : Nat
  deriving DecidableEq, Repr

/-- The days from 0000-03-01 to 1970-01-01. -/
def epochOffset : Int := 719468

namespace Date

/-- The day on which a year that starts in March begins, from 0000-03-01. -/
def yearStart (y : Int) : Int :=
  146097 * (y / 400) + 36524 * (y % 400 / 100) + 1461 * (y % 100 / 4) + 365 * (y % 4)

/-- The days from 1 March to the first of a month, counting March as 0. -/
def monthStart (m : Nat) : Nat := (153 * m + 2) / 5

def dayNumber (d : Date) : Int :=
  if d.month ≤ 2 then yearStart (d.year - 1) + (monthStart (d.month + 9) + d.day - 1 : Nat) - epochOffset
  else yearStart d.year + (monthStart (d.month - 3) + d.day - 1 : Nat) - epochOffset

/-- The date within a year that starts in March, by the days since its start. -/
def ofYearDay (year : Int) (n : Nat) : Date :=
  let m := (5 * n + 2) / 153
  let day := n - monthStart m + 1
  if m < 10 then ⟨year, m + 3, day⟩ else ⟨year + 1, m - 9, day⟩

def ofDayNumber (n : Int) : Date :=
  let era := (n + epochOffset) / 146097
  let inEra := ((n + epochOffset) % 146097).toNat
  let century := min (inEra / 36524) 3
  let inCentury := inEra - 36524 * century
  let four := inCentury / 1461
  let inFour := inCentury % 1461
  let one := min (inFour / 365) 3
  ofYearDay (400 * era + (100 * century + 4 * four + one : Nat)) (inFour - 365 * one)

def isLeapYear (y : Int) : Bool := y % 4 == 0 && (y % 100 != 0 || y % 400 == 0)

def monthLength (y : Int) (m : Nat) : Nat :=
  if m = 2 then (if isLeapYear y then 29 else 28)
  else if m = 4 || m = 6 || m = 9 || m = 11 then 30
  else 31

/-- Whether the calendar has such a date. -/
def exists? (d : Date) : Bool :=
  1 ≤ d.month && d.month ≤ 12 && 1 ≤ d.day && d.day ≤ monthLength d.year d.month

end Date

def minYear : Int := -262143
def maxYear : Int := 262142

/-- Whether the day lies in a year that stamps can hold. -/
def supportsDay (n : Int) : Bool :=
  minYear ≤ (Date.ofDayNumber n).year && (Date.ofDayNumber n).year ≤ maxYear

/-- What a wall clock shows: milliseconds since 1970-01-01T00:00:00Z. -/
structure Instant where
  unixMillis : Int
  deriving DecidableEq, Repr, Inhabited

structure Moment where
  day : Int
  second : Nat
  milli : Nat
  deriving DecidableEq, Repr

def millisPerDay : Int := 86400000

def Instant.moment (t : Instant) : Moment :=
  let inDay := (t.unixMillis % millisPerDay).toNat
  ⟨t.unixMillis / millisPerDay, inDay / 1000, inDay % 1000⟩

namespace Moment

def millis (t : Moment) : Int := t.day * millisPerDay + (t.second * 1000 + t.milli : Nat)

def isLeap (t : Moment) : Bool := 1000 ≤ t.milli

/-- The milliseconds that a clock has shown since an earlier moment. One that began in a leap
second has that second counted once the time of day has moved past it. -/
def since (now start : Moment) : Int :=
  now.millis - start.millis + if start.isLeap && start.second < now.second then 1000 else 0

end Moment

end PodSizing.Time
