import Capsule.Json.Value

/-!
# Numbers in JSON text

The grammar of a number and the value it denotes. The two are separate: `Numeral.scan` cuts the
characters of a number off a text, and `Numeral.value?` computes what they mean.

A numeral with neither fraction nor exponent that fits in sixty-four bits, with or without sign,
is that integer, except that the negative zero is a double. Every other numeral is a double in
two roundings: its leading digits, as many as fit in an unsigned word, are rounded to a double, and
that is multiplied or divided by the double nearest to the power of ten that is left over. So the
result is not always the double nearest to the numeral. A numeral whose product would be infinite
denotes nothing.
-/

namespace Capsule

/-- Where a text that ends too early breaks off. -/
inductive BreakPoint
  /-- Between two tokens. -/
  | between
  /-- Inside a word or a number. -/
  | inToken
  | inString
deriving DecidableEq, Repr, Inhabited

/-- Why a text is no document of the format. -/
inductive Fault
  /-- A character stands where the grammar allows none such. -/
  | malformed
  /-- The text ends too early. -/
  | unfinished (point : BreakPoint)
deriving DecidableEq, Repr, Inhabited

/-- The parts of a number in a text: sign, digits before and after the point, exponent. -/
structure Numeral where
  negative : Bool
  whole : List Char
  fraction : List Char := []
  exponent : Option (Bool × List Char) := none
deriving DecidableEq, Repr

namespace Numeral

def digitValue (c : Char) : Nat := c.toNat - '0'.toNat

/-- The natural number that a list of decimal digits denotes. -/
def decimal (digits : List Char) : Nat := digits.foldl (fun n c => 10 * n + digitValue c) 0

/-- The largest unsigned word. -/
def wordMax : Nat := Nat.pow 2 64 - 1

/-- Takes digits of the integer part into the significand while it fits in a word; each digit
after the first that does not fit counts in the exponent instead. -/
def absorbWhole (significand : Nat) : List Char → Nat × Nat
  | [] => (significand, 0)
  | c :: cs =>
    if significand * 10 + digitValue c ≤ wordMax then
      absorbWhole (significand * 10 + digitValue c) cs
    else (significand, cs.length + 1)

/-- Takes digits of the fraction into the significand while it fits in a word; gives how many were
taken. All digits after the first that does not fit are dropped. -/
def absorbFraction (significand : Nat) : List Char → Nat × Nat
  | [] => (significand, 0)
  | c :: cs =>
    if significand * 10 + digitValue c ≤ wordMax then
      let (s, taken) := absorbFraction (significand * 10 + digitValue c) cs
      (s, taken + 1)
    else (significand, 0)

/-- The largest power of ten that a double holds. -/
def largestPower : Nat := 308

/-- Divides by `10 ^ k`, in steps of the largest power that a double holds. -/
def scaleDown (d : Double) (k : Nat) : Double :=
  if k ≤ largestPower then d.div (.powerOfTen k)
  else if d.isZero then d
  else scaleDown (d.div (.powerOfTen largestPower)) (k - largestPower)
termination_by k
decreasing_by simp only [largestPower] at *; omega

/-- Multiplies or divides by a power of ten, unless the result would be infinite. -/
def scale (d : Double) (exponent : Int) : Option Double :=
  if exponent < 0 then some (scaleDown d exponent.natAbs)
  else if d.isZero then some d
  else if largestPower < exponent.toNat then none
  else
    let product := d.mul (.powerOfTen exponent.toNat)
    if product.isInfinite then none else some product

/-- The exponent as written. -/
def writtenExponent (n : Numeral) : Int :=
  match n.exponent with
  | none => 0
  | some (negative, digits) => if negative then -(decimal digits : Int) else decimal digits

/-- The double that a numeral denotes. -/
def real? (n : Numeral) : Option Double :=
  let (s, dropped) := absorbWhole 0 n.whole
  let (s, taken) := absorbFraction s n.fraction
  let sized := scale (.ofNat s) (n.writtenExponent + dropped - taken)
  sized.map fun d => if n.negative then d.negate else d

/-- The number that a numeral denotes. -/
def value? (n : Numeral) : Option Number :=
  let magnitude := decimal n.whole
  if n.fraction = [] ∧ n.exponent = none ∧ magnitude ≤ wordMax then
    if n.negative = false then some (.integer magnitude)
    else if magnitude = 0 then some (.real ⟨UInt64.ofNat (Nat.pow 2 63)⟩)
    else if magnitude ≤ Nat.pow 2 63 then some (.integer (-magnitude))
    else some (.real (Double.ofRatio true magnitude 1))
  else n.real?.map .real

/-! ### The grammar -/

/-- What a scan of a number finds: the numeral and the rest of the text, or the fault. -/
abbrev Scan := Except Fault (Numeral × List Char)

def isDigit (c : Char) : Bool := '0' ≤ c && c ≤ '9'

/-- At least one digit is required here. -/
def digits (cs : List Char) : Except Fault (List Char × List Char) :=
  match cs with
  | [] => .error (.unfinished .inToken)
  | c :: _ =>
    if isDigit c then .ok (cs.takeWhile isDigit, cs.dropWhile isDigit) else .error .malformed

/-- The exponent, if one follows. -/
def scanExponent (n : Numeral) (cs : List Char) : Scan :=
  match cs with
  | e :: rest =>
    if e = 'e' ∨ e = 'E' then
      let (negative, rest) := match rest with
        | '+' :: rest => (false, rest)
        | '-' :: rest => (true, rest)
        | rest => (false, rest)
      match digits rest with
      | .error f => .error f
      | .ok (ds, rest) => .ok ({ n with exponent := some (negative, ds) }, rest)
    else .ok (n, cs)
  | [] => .ok (n, cs)

/-- The fraction, if one follows, and the exponent. -/
def scanFraction (n : Numeral) (cs : List Char) : Scan :=
  match cs with
  | '.' :: rest =>
    match digits rest with
    | .error f => .error f
    | .ok (ds, rest) => scanExponent { n with fraction := ds } rest
  | cs => scanExponent n cs

/-- The number after its sign. A leading zero stands alone. -/
def scanWhole (negative : Bool) (cs : List Char) : Scan :=
  match digits cs with
  | .error f => .error f
  | .ok (ds, rest) =>
    if ds.head? = some '0' ∧ 1 < ds.length then .error .malformed
    else scanFraction ⟨negative, ds, [], none⟩ rest

/-- A number at the start of a text that begins with a digit or a minus sign. -/
def scan : List Char → Scan
  | '-' :: cs => scanWhole true cs
  | cs => scanWhole false cs

end Numeral

end Capsule
