import Capsule.Json.Decode
import Capsule.Text.Utf8

/-!
# JSON values from bytes

What a program prints is a sequence of bytes, which need not be UTF-8. An ill-formed byte outside
a string is a fault like any other character that does not belong there. Inside a string it is one
too, but only when the string is closed: a text that breaks off inside a string is unfinished,
whatever the string holds.
-/

namespace Capsule.Json

/-- Whether a string that is open where a text begins is closed in it. -/
def closes : List Char → Bool
  | [] => false
  | '"' :: _ => true
  | ['\\'] => false
  | '\\' :: _ :: cs => closes cs
  | _ :: cs => closes cs

/-- The value that bytes are the text of. -/
def ofBytes (bytes : List UInt8) : Decoded Json :=
  match Utf8.split bytes with
  | (text, []) => Decode.whole Decode.untyped text
  | (text, rest) =>
    match Decode.whole Decode.untyped text with
    | .error (.fault (.unfinished .inString)) =>
      if closes (Utf8.marked rest) then Decode.fault .malformed
      else Decode.whole Decode.untyped (text ++ Utf8.marked rest)
    | _ => Decode.fault .malformed

end Capsule.Json
