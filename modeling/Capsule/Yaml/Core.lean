import Capsule.Double
import Capsule.Text.Hex

/-!
# What plain YAML scalars mean

A plain scalar that has to be given a type is null, a boolean, an integer or a float if it is
spelled like one, and otherwise a text. `Core.isText` is all that a map of texts asks; `Core.bool?`
and `Core.natural?` read a boolean and an unsigned integer where one is wanted.

Digits with superfluous leading zeros are a text, and so is a number too large for a double.
-/

namespace Capsule.Yaml.Core

def isNull (s : List Char) : Bool :=
  s == "null".toList || s == "Null".toList || s == "NULL".toList || s == ['~']

def bool? (s : List Char) : Option Bool :=
  if s == "true".toList || s == "True".toList || s == "TRUE".toList then some true
  else if s == "false".toList || s == "False".toList || s == "FALSE".toList then some false
  else none

/-- A sign, and what follows it. -/
def sign : List Char → Option Char × List Char
  | '+' :: cs => (some '+', cs)
  | '-' :: cs => (some '-', cs)
  | cs => (none, cs)

/-- More than one digit, the first of them a zero. -/
def hasLeadingZero (s : List Char) : Bool :=
  match (sign s).2 with
  | '0' :: c :: cs => (c :: cs).all Char.isDigit
  | _ => false

/-- The number that a non-empty list of digits of a base up to sixteen denotes. -/
def digits? (base : Nat) (cs : List Char) : Option Nat := do
  if cs.isEmpty then none
  let ds ← cs.mapM Hex.digit?
  if ds.all (· < base) then pure (ds.foldl (fun n d => base * n + d) 0) else none

/-- The base that a prefix announces, and the digits behind it. -/
def radix : List Char → Nat × List Char
  | '0' :: 'x' :: cs => (16, cs)
  | '0' :: 'o' :: cs => (8, cs)
  | '0' :: 'b' :: cs => (2, cs)
  | cs => (10, cs)

/-- An integer: its sign and magnitude. -/
def integer? (s : List Char) : Option (Bool × Nat) := do
  let (sg, cs) := sign s
  if hasLeadingZero s then none
  let (base, ds) := radix cs
  pure (sg == some '-', ← digits? base ds)

/-- An unsigned integer below `limit`. -/
def natural? (limit : Nat) (s : List Char) : Option Nat := do
  if s.head? == some '-' then none
  let (_, n) ← integer? s
  if n < limit then pure n else none

/-- Whether an integer with this sign and magnitude is read as one at all: up to 128 bits are. -/
def isInteger (s : List Char) : Bool :=
  match integer? s with
  | some (false, n) => n < Nat.pow 2 128
  | some (true, n) => n ≤ Nat.pow 2 127
  | none => false

/-- A decimal: its digits without the point, how many of them are behind it, and the exponent. -/
def decimal? (s : List Char) : Option (Nat × Nat × Int) := do
  let whole := s.takeWhile Char.isDigit
  let rest := s.dropWhile Char.isDigit
  let (fraction, rest) := match rest with
    | '.' :: cs => (cs.takeWhile Char.isDigit, cs.dropWhile Char.isDigit)
    | cs => ([], cs)
  let ds ← digits? 10 (whole ++ fraction)
  match rest with
  | [] => pure (ds, fraction.length, 0)
  | e :: cs =>
    if e == 'e' || e == 'E' then
      let (sg, cs) := sign cs
      if !cs.all Char.isDigit then none
      let n ← digits? 10 cs
      pure (ds, fraction.length, if sg == some '-' then -(n : Int) else n)
    else none

/-- Whether a decimal is finite as a double. -/
def isFinite (digits behind : Nat) (exponent : Int) : Bool :=
  let e := exponent - behind
  if digits = 0 then true
  else if e < 0 then
    -- Far below the least double nothing is decided by the power any more.
    let k := min e.natAbs ((Nat.toDigits 10 digits).length + 400)
    !(Double.ofRatio false digits (Nat.pow 10 k)).isInfinite
  else if 400 < e then false
  else !(Double.ofRatio false (digits * Nat.pow 10 e.toNat) 1).isInfinite

/-- Whether a scalar is a float: infinite, not a number, or a decimal that is finite. -/
def isFloat (s : List Char) : Bool :=
  let unsigned := match s with
    | '+' :: cs => cs
    | cs => cs
  let doubleSign := s.head? == some '+' && (sign unsigned).1.isSome
  if doubleSign then false
  else
    unsigned == ".inf".toList || unsigned == ".Inf".toList || unsigned == ".INF".toList ||
    s == "-.inf".toList || s == "-.Inf".toList || s == "-.INF".toList ||
    s == ".nan".toList || s == ".NaN".toList || s == ".NAN".toList ||
    match decimal? (sign unsigned).2 with
    | some (ds, behind, e) => isFinite ds behind e
    | none => false

/-- Whether a plain scalar without a tag is a text. -/
def isText (s : List Char) : Bool :=
  !(s.isEmpty || isNull s || (bool? s).isSome || isInteger s || (!hasLeadingZero s && isFloat s))

end Capsule.Yaml.Core
