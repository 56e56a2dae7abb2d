import Capsule.Double

/-!
# The shortest decimal of a double

The decimal with the fewest significant digits among those that round to a given double, and of
these the one nearest to it. With `n` digits the candidates lie on a grid, and if any point of the
grid rounds to the double then one of its two neighbours there does, so only those two are tried,
for one digit, two digits, and so on up to seventeen, which always suffice.

A real rounds to the double when it lies between the midpoints to the neighbouring doubles, and a
midpoint itself does so exactly when the significand is even. Everything is compared over a common
denominator, in natural numbers.
-/

namespace Capsule.Double

/-- A decimal `digits * 10 ^ exponent`. -/
structure Decimal where
  digits : Nat
  exponent : Int
deriving DecidableEq, Repr

/-- The reals that round to a double: the double, the midpoint below and the midpoint above, all
over the denominator `den`, and whether the midpoints belong. -/
structure Neighbourhood where
  value : Nat
  low : Nat
  high : Nat
  den : Nat
  closed : Bool

/-- The neighbourhood of a finite double other than zero. The midpoint below is half as far off
when the double begins a binade. -/
def neighbourhood (d : Double) : Neighbourhood :=
  let m := d.significand
  let scale := Nat.pow 2 d.exponent.toNat
  let below := if m = Nat.pow 2 52 ∧ leastExponent < d.exponent then 1 else 2
  { value := 4 * m * scale
    low := (4 * m - below) * scale
    high := (4 * m + 2) * scale
    den := 4 * Nat.pow 2 (-d.exponent).toNat
    closed := m % 2 = 0 }

/-- Whether `c * 10 ^ e` lies in the neighbourhood. -/
def Neighbourhood.contains (h : Neighbourhood) (c : Nat) (e : Int) : Bool :=
  let x := c * Nat.pow 10 e.toNat * h.den
  let s := Nat.pow 10 (-e).toNat
  if h.closed then h.low * s ≤ x && x ≤ h.high * s else h.low * s < x && x < h.high * s

/-- Twice the distance of `c * 10 ^ e` from the double, over the denominator `den * 10 ^ (-e)`. -/
def Neighbourhood.distance (h : Neighbourhood) (c : Nat) (e : Int) : Nat :=
  let x := c * Nat.pow 10 e.toNat * h.den
  let v := h.value * Nat.pow 10 (-e).toNat
  (x - v) + (v - x)

/-- The better of the two neighbours on the grid of multiples of `10 ^ e`, if one belongs. A tie
goes to the even one. -/
def Neighbourhood.onGrid (h : Neighbourhood) (e : Int) : Option Nat :=
  let c := h.value * Nat.pow 10 (-e).toNat / (h.den * Nat.pow 10 e.toNat)
  match h.contains c e && 0 < c, h.contains (c + 1) e with
  | false, false => none
  | true, false => some c
  | false, true => some (c + 1)
  | true, true =>
    let below := h.distance c e
    let above := h.distance (c + 1) e
    if below < above then some c
    else if above < below then some (c + 1)
    else if c % 2 = 0 then some c else some (c + 1)

/-- The largest `k` with `10 ^ k * den ≤ num`, searched downwards from `start`. -/
def leadingPlace (num den : Nat) : Nat → Int → Int
  | 0, k => k
  | fuel + 1, k =>
    if Nat.pow 10 k.toNat * den ≤ num * Nat.pow 10 (-k).toNat then k
    else leadingPlace num den fuel (k - 1)

/-- Tries the grids with `17 - fuel + 1`, …, seventeen digits. -/
def Neighbourhood.search (h : Neighbourhood) (place : Int) : Nat → Decimal
  | 0 => ⟨h.value / h.den, 0⟩
  | fuel + 1 =>
    let e := place - (16 - fuel : Nat)
    match h.onGrid e with
    | some c => ⟨c, e⟩
    | none => h.search place fuel

/-- Moves trailing zeros of the digits into the exponent. -/
def Decimal.trim (d : Decimal) : Nat → Decimal
  | 0 => d
  | fuel + 1 =>
    if d.digits ≠ 0 ∧ d.digits % 10 = 0 then Decimal.trim ⟨d.digits / 10, d.exponent + 1⟩ fuel
    else d

/-- The shortest decimal of a finite double other than zero. -/
def shortest (d : Double) : Decimal :=
  let h := neighbourhood d
  (h.search (leadingPlace h.value h.den 640 310) 17).trim 17

end Capsule.Double
