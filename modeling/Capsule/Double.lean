/-!
# Double-precision numbers

A double is its sixty-four bits, and every operation on it is exact arithmetic on natural numbers
followed by one rounding. Nothing here uses the machine's floating-point unit, so each result is a
closed term that a proof can compute.

The one rounding is `Double.magnitude`: the ratio `num / den` goes to the nearest double, and a
ratio half-way between two goes to the one with the even significand. A ratio past the largest
finite double goes to infinity. The layout of the bits makes this short: below the sign, a double
with exponent field `e + 1075` and significand `m` (hidden bit included) has the bits
`(e + 1074) * 2 ^ 52 + m`, in the subnormal range as well, and also when rounding carries `m` up to
`2 ^ 53`.

## Main definitions

* `Double.ofNat`, `Double.mulPowerOfTen`, `Double.divPowerOfTen`: the rounded operations
* `Double.isNaN`, `Double.isInfinite`, `Double.isLargest`: the values that stand for "not known"
* `Double.significand`, `Double.exponent`: the exact value of a finite double
-/

namespace Capsule

/-- An IEEE 754 double, given by its bits. -/
structure Double where
  bits : UInt64
deriving DecidableEq, Repr, Inhabited

namespace Double

/-- The quotient to the nearest integer, a half going to the even neighbour. -/
def roundDiv (num den : Nat) : Nat :=
  let q := num / den
  let r := num % den
  if 2 * r < den then q
  else if den < 2 * r then q + 1
  else if q % 2 = 0 then q else q + 1

/-- The bits of positive infinity. -/
def infinityBits : Nat := 0x7FF0000000000000

/-- The least exponent of the significand's last place. -/
def leastExponent : Int := -1074

/-- The exponent of the last place that a significand of fifty-three bits has for `num / den`. -/
def lastPlace (num den : Nat) : Int :=
  let e : Int := (Nat.log2 num : Int) - (Nat.log2 den : Int) - 52
  let tooHigh := num * Nat.pow 2 (-e).toNat < den * Nat.pow 2 e.toNat * Nat.pow 2 52
  max leastExponent (if tooHigh then e - 1 else e)

/-- The bits below the sign of the double nearest to `num / den`. -/
def magnitude (num den : Nat) : Nat :=
  if num = 0 then 0
  else
    let e := lastPlace num den
    let m := roundDiv (num * Nat.pow 2 (-e).toNat) (den * Nat.pow 2 e.toNat)
    min infinityBits ((e - leastExponent).toNat * Nat.pow 2 52 + m)

/-- The double with the given sign nearest to `num / den`. -/
def ofRatio (negative : Bool) (num den : Nat) : Double :=
  ⟨UInt64.ofNat ((if negative then Nat.pow 2 63 else 0) + magnitude num den)⟩

/-- The double nearest to a natural number. -/
def ofNat (n : Nat) : Double := ofRatio false n 1

/-- The double nearest to an integer; zero is positive. -/
def ofInt (n : Int) : Double := ofRatio (n < 0) n.natAbs 1

/-- The bits below the sign. -/
def low (d : Double) : Nat := d.bits.toNat % Nat.pow 2 63

/-- Whether the sign bit is set. -/
def isNegative (d : Double) : Bool := Nat.pow 2 63 ≤ d.bits.toNat

def isNaN (d : Double) : Bool := infinityBits < d.low

def isInfinite (d : Double) : Bool := d.low = infinityBits

/-- Whether the magnitude is the largest finite one. -/
def isLargest (d : Double) : Bool := d.low + 1 = infinityBits

def isZero (d : Double) : Bool := d.low = 0

/-- The same magnitude with the other sign. -/
def negate (d : Double) : Double :=
  ⟨UInt64.ofNat ((if d.isNegative then 0 else Nat.pow 2 63) + d.low)⟩

/-- The quiet not-a-number that stands for an absent measurement. -/
def nan : Double := ⟨0x7FF8000000000000⟩

/-- The significand of a finite double, hidden bit included. -/
def significand (d : Double) : Nat :=
  if d.low < Nat.pow 2 52 then d.low else Nat.pow 2 52 + d.low % Nat.pow 2 52

/-- The exponent of the significand's last place. -/
def exponent (d : Double) : Int :=
  if d.low < Nat.pow 2 52 then leastExponent
  else (d.low / Nat.pow 2 52 : Nat) + leastExponent - 1

/-- The exact magnitude of a finite double as a ratio. -/
def ratio (d : Double) : Nat × Nat :=
  (d.significand * Nat.pow 2 d.exponent.toNat, Nat.pow 2 (-d.exponent).toNat)

/-- The double nearest to `10 ^ k`. -/
def powerOfTen (k : Nat) : Double := ofNat (Nat.pow 10 k)

/-- The rounded product of two finite doubles, of which the sign of the first is kept. -/
def mul (a b : Double) : Double :=
  ofRatio a.isNegative (a.ratio.1 * b.ratio.1) (a.ratio.2 * b.ratio.2)

/-- The rounded quotient of two finite doubles, of which the sign of the first is kept. -/
def div (a b : Double) : Double :=
  ofRatio a.isNegative (a.ratio.1 * b.ratio.2) (a.ratio.2 * b.ratio.1)

end Double

end Capsule
