/-!
# The calendar

Days and dates of the Gregorian calendar, extended without limit to both sides. Days are counted
from the first of January 1970.

Years are taken to begin in March, so that the leap day is a year's last day and the months before
it have a regular pattern: month `m` (with March as zero) begins on day `(153 * m + 2) / 5`. Four
hundred years are 146097 days, and within such a cycle everything is arithmetic on natural numbers.

## Main definitions

* `Date.ofDay`, `Date.toDay`: between days and dates
* `Moment`: a second of universal time with its fraction, and its texts
-/

namespace Capsule

/-- A date of the Gregorian calendar. -/
structure Date where
  year : Int
  month : Nat
  day : Nat
deriving DecidableEq, Repr, Inhabited

namespace Date

/-- The days of four hundred years. -/
def cycleDays : Nat := 146097

/-- The day of the first of March of the year zero. -/
def origin : Int := -719468

/-- The year within a cycle that a day of the cycle falls in. -/
def yearOfCycle (day : Nat) : Nat := (day - day / 1460 + day / 36524 - day / 146096) / 365

/-- The day of a cycle on which one of its years begins. -/
def yearStart (year : Nat) : Nat := 365 * year + year / 4 - year / 100

/-- The day of a year on which one of its months begins, counted from March. -/
def monthStart (month : Nat) : Nat := (153 * month + 2) / 5

/-- The date of a day. -/
def ofDay (n : Int) : Date :=
  let cycle := (n - origin) / cycleDays
  let day := ((n - origin) % cycleDays).toNat
  let year := yearOfCycle day
  let rest := day - yearStart year
  let month := (5 * rest + 2) / 153
  { year := 400 * cycle + year + (if month < 10 then 0 else 1)
    month := if month < 10 then month + 3 else month - 9
    day := rest - monthStart month + 1 }

/-- The day of a date. -/
def toDay (d : Date) : Int :=
  let year : Int := if d.month ≤ 2 then d.year - 1 else d.year
  let month := if d.month ≤ 2 then d.month + 9 else d.month - 3
  let rest := yearStart (year % 400).toNat + monthStart month + (d.day - 1)
  year / 400 * cycleDays + rest + origin

end Date

/-- Decimal digits, with zeros in front up to a width. -/
def padded (width n : Nat) : String :=
  let digits := Nat.toDigits 10 n
  String.ofList (List.replicate (width - digits.length) '0' ++ digits)

/-- A year has at least four digits, and a sign when it is negative or has more. -/
def Date.yearText (year : Int) : String :=
  if 0 ≤ year ∧ year ≤ 9999 then padded 4 year.toNat
  else (if year < 0 then "-" else "+") ++ padded 4 year.natAbs

def Date.text (d : Date) : String :=
  yearText d.year ++ "-" ++ padded 2 d.month ++ "-" ++ padded 2 d.day

/-- A moment of universal time: whole seconds from the beginning of 1970, and nanoseconds behind
them. A billion nanoseconds or more stand for a leap second. -/
structure Moment where
  seconds : Int
  nanoseconds : Nat := 0
deriving DecidableEq, Repr, Inhabited

namespace Moment

def daySeconds : Nat := 86400

def date (m : Moment) : Date := .ofDay (m.seconds / daySeconds)

/-- The second of the day. -/
def secondOfDay (m : Moment) : Nat := (m.seconds % daySeconds).toNat

/-- Hours, minutes and seconds; a leap second is the sixty-first of its minute. -/
def clockText (m : Moment) : String :=
  let s := m.secondOfDay
  let leap := if 1000000000 ≤ m.nanoseconds then 1 else 0
  padded 2 (s / 3600) ++ ":" ++ padded 2 (s / 60 % 60) ++ ":" ++ padded 2 (s % 60 + leap)

/-- The fraction of the second in as many groups of three digits as it needs. -/
def fractionText (m : Moment) : String :=
  let n := m.nanoseconds % 1000000000
  if n = 0 then ""
  else if n % 1000000 = 0 then "." ++ padded 3 (n / 1000000)
  else if n % 1000 = 0 then "." ++ padded 6 (n / 1000)
  else "." ++ padded 9 n

/-- Date and time with a `T` between them and a `Z` behind them. -/
def text (m : Moment) : String :=
  m.date.text ++ "T" ++ m.clockText ++ m.fractionText ++ "Z"

end Moment

end Capsule
