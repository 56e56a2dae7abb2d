import Capsule.Double
import Capsule.Time.Calendar

/-!
# Figures for readers

How sizes and times are shown. A size is a number of bytes; from 1024 on it is given in the largest
of three units that it reaches, with one decimal, and the largest number of all stands for "no
limit". A time is a number of microseconds, of which zero means that it is not known.
-/

namespace Capsule.Report

/-- The size that stands for "no limit". -/
def unlimited : Nat := Nat.pow 2 64 - 1

/-- A size in a unit, with one decimal. The size is a double, so one above `2 ^ 53` is rounded
twice. -/
def inUnit (n unit : Nat) (name : String) : String :=
  let (num, den) := ((Double.ofNat n).div (.ofNat unit)).ratio
  let tenths := Double.roundDiv (10 * num) den
  toString (tenths / 10) ++ "." ++ toString (tenths % 10) ++ " " ++ name

/-- A size. -/
def size (n : Nat) : String :=
  if n = unlimited then "unlimited"
  else if Nat.pow 2 30 ≤ n then inUnit n (Nat.pow 2 30) "GiB"
  else if Nat.pow 2 20 ≤ n then inUnit n (Nat.pow 2 20) "MiB"
  else if Nat.pow 2 10 ≤ n then inUnit n (Nat.pow 2 10) "KiB"
  else toString n ++ " B"

/-- The largest number of microseconds that is taken for a time. -/
def largestCount : Nat := Nat.pow 2 63 - 1

/-- The last year for which times are shown. -/
def lastYear : Int := 262142

/-- A time in microseconds, to the second. -/
def time (usec : Nat) : String :=
  let moment : Moment := ⟨usec / 1000000, 0⟩
  if usec = 0 ∨ largestCount < usec ∨ lastYear < moment.date.year then "-"
  else moment.date.text ++ " " ++ moment.clockText ++ " UTC"

/-- An answer to a question. -/
def yesNo (b : Bool) : String := if b then "yes" else "no"

end Capsule.Report
