import Capsule.Json.Value
import Capsule.Double.Shortest

/-!
# JSON text

Two layouts of a JSON value: `Json.compact`, without any blank, and `Json.pretty`, one member or
item a line and two blanks a level. Both write members in the order in which the tree holds them,
and share the spelling of what is no container:

* in a string the quotation mark, the backslash and the characters below U+0020 are escaped, by
  their letter where they have one and otherwise by four lower-case hexadecimal digits;
* a double is the shortest decimal that reads back. `RealLayout` says where positional notation
  ends and how the exponent is written.
-/

namespace Capsule.Json

/-- The characters of a natural number in decimal. -/
def natChars (n : Nat) : List Char := Nat.toDigits 10 n

/-- The characters of an integer in decimal. -/
def intChars (n : Int) : List Char :=
  if n < 0 then '-' :: natChars n.natAbs else natChars n.natAbs

/-- One character inside a string. -/
def escapeChar (c : Char) : List Char :=
  match c with
  | '"' => ['\\', '"']
  | '\\' => ['\\', '\\']
  | '\x08' => ['\\', 'b']
  | '\x0c' => ['\\', 'f']
  | '\n' => ['\\', 'n']
  | '\r' => ['\\', 'r']
  | '\t' => ['\\', 't']
  | c =>
    if c.toNat < 0x20 then
      ['\\', 'u', '0', '0', Nat.digitChar (c.toNat / 16), Nat.digitChar (c.toNat % 16)]
    else [c]

/-- A string with its quotation marks. -/
def stringChars (s : String) : List Char :=
  '"' :: s.toList.flatMap escapeChar ++ ['"']

/-- The decimal exponents, of the leading digit, that are written positionally. -/
structure RealLayout where
  leastPositional : Int
  mostPositional : Int

/-- Exponents from -5 to 15 are written positionally, with at least one digit on each side of the
point; all others with a signed exponent. -/
def realLayout : RealLayout := ⟨-5, 15⟩

/-- The digits with a point after the first `whole` of them. -/
def positional (digits : List Char) (whole : Int) : List Char :=
  if whole ≤ 0 then '0' :: '.' :: List.replicate (-whole).toNat '0' ++ digits
  else if digits.length ≤ whole.toNat then
    digits ++ List.replicate (whole.toNat - digits.length) '0' ++ ['.', '0']
  else digits.take whole.toNat ++ '.' :: digits.drop whole.toNat

/-- The digits with a point after the first of them, if there are more, and an exponent. -/
def scientific (digits : List Char) (exponent : Int) : List Char :=
  digits.take 1 ++ (if 1 < digits.length then '.' :: digits.drop 1 else []) ++
    'e' :: (if exponent < 0 then '-' else '+') :: natChars exponent.natAbs

/-- The characters of a finite double. -/
def realChars (d : Double) : List Char :=
  let sign := if d.isNegative then ['-'] else []
  if d.isZero then sign ++ ['0', '.', '0']
  else
    let short := d.shortest
    let digits := natChars short.digits
    let exponent := short.exponent + digits.length - 1
    sign ++
      if realLayout.leastPositional ≤ exponent ∧ exponent ≤ realLayout.mostPositional then
        positional digits (exponent + 1)
      else scientific digits exponent

/-- The characters of a number. -/
def numberChars : Number → List Char
  | .integer n => intChars n
  | .real d => realChars d

mutual

/-- The compact text of a value. -/
def compactChars : Json → List Char
  | .null => ['n', 'u', 'l', 'l']
  | .bool true => ['t', 'r', 'u', 'e']
  | .bool false => ['f', 'a', 'l', 's', 'e']
  | .number n => numberChars n
  | .string s => stringChars s
  | .array [] => ['[', ']']
  | .array (x :: xs) => '[' :: compactChars x ++ compactItems xs
  | .object [] => ['{', '}']
  | .object ((k, v) :: ms) => '{' :: stringChars k ++ ':' :: compactChars v ++ compactMembers ms

/-- The items after the first, and the closing bracket. -/
def compactItems : List Json → List Char
  | [] => [']']
  | x :: xs => ',' :: compactChars x ++ compactItems xs

/-- The members after the first, and the closing brace. -/
def compactMembers : List (String × Json) → List Char
  | [] => ['}']
  | (k, v) :: ms => ',' :: stringChars k ++ ':' :: compactChars v ++ compactMembers ms

end

/-- A value on one line without blanks. -/
def compact (v : Json) : String := String.ofList (compactChars v)

/-- A line break and the blanks of a level. -/
def newline (level : Nat) : List Char := '\n' :: List.replicate (2 * level) ' '

mutual

/-- The text of a value that begins at the given level. -/
def prettyChars (level : Nat) : Json → List Char
  | .null => ['n', 'u', 'l', 'l']
  | .bool true => ['t', 'r', 'u', 'e']
  | .bool false => ['f', 'a', 'l', 's', 'e']
  | .number n => numberChars n
  | .string s => stringChars s
  | .array [] => ['[', ']']
  | .array (x :: xs) =>
    '[' :: newline (level + 1) ++ prettyChars (level + 1) x ++ prettyItems level xs
  | .object [] => ['{', '}']
  | .object ((k, v) :: ms) =>
    '{' :: newline (level + 1) ++ stringChars k ++ ':' :: ' ' :: prettyChars (level + 1) v ++
      prettyMembers level ms

/-- The items after the first, and the closing bracket on a line of its own. -/
def prettyItems (level : Nat) : List Json → List Char
  | [] => newline level ++ [']']
  | x :: xs => ',' :: newline (level + 1) ++ prettyChars (level + 1) x ++ prettyItems level xs

/-- The members after the first, and the closing brace on a line of its own. -/
def prettyMembers (level : Nat) : List (String × Json) → List Char
  | [] => newline level ++ ['}']
  | (k, v) :: ms =>
    ',' :: newline (level + 1) ++ stringChars k ++ ':' :: ' ' :: prettyChars (level + 1) v ++
      prettyMembers level ms

end

/-- A value over several lines. -/
def pretty (v : Json) : String := String.ofList (prettyChars 0 v)

end Capsule.Json
