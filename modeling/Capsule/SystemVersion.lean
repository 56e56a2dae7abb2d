import Capsule.Text.Blank

/-!
# The version of the service manager

The service manager states its version as the second word of a line that begins with its name, or as
a bare text that may stand in quotation marks. Only the major number is wanted: the digits at the
beginning.
-/

namespace Capsule.SystemVersion

/-- The name of the service manager, as its version line begins. -/
def banner : List Char := "systemd ".toList

/-- The first line of a text, without a carriage return at its end. -/
def firstLine (text : List Char) : List Char :=
  let line := text.takeWhile (· ≠ '\n')
  match line.reverse with
  | '\r' :: rest => rest.reverse
  | _ => line

/-- The text of the version on a line: its second word behind the banner, or else all of it. -/
def statement (line : List Char) : List Char :=
  if banner.isPrefixOf line then Blank.firstWord (line.drop banner.length) else line

/-- The major number that a version statement gives. -/
def major? (text : List Char) : Option (List Char) :=
  let stated := statement (Blank.trim (firstLine text))
  match (Blank.trimBy (· == '"') stated).takeWhile Char.isDigit with
  | [] => none
  | digits => some digits

end Capsule.SystemVersion
