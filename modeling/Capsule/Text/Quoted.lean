import Capsule.Text.Printable

/-!
# Quoted text in messages

How a value given by the user is shown inside a message: between double quotes, with the quote
and the backslash escaped, the five usual control characters by their letter, and every other
character without a glyph of its own by its number in braces.
-/

namespace Capsule.Quoted

/-- Lower-case hexadecimal digits of a number, without leading zeros. -/
def hex (n : Nat) : String := String.ofList (Nat.toDigits 16 n)

/-- One character of a quoted text. -/
def escape (c : Char) : String :=
  match c with
  | '\x00' => "\\0"
  | '\t' => "\\t"
  | '\r' => "\\r"
  | '\n' => "\\n"
  | '\\' => "\\\\"
  | '"' => "\\\""
  | c => if Printable.isHidden c then "\\u\x7b" ++ hex c.toNat ++ "\x7d" else c.toString

/-- A text between double quotes. -/
def quote (s : String) : String :=
  "\"" ++ String.join (s.toList.map escape) ++ "\""

end Capsule.Quoted
