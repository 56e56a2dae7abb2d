import Capsule.Rehearsal.Document

/-!
# The command line

Rehearses a command: the words are those of the command line, and the host is described on
standard input, where no input stands for a host with nothing of its own. What the command prints
goes to standard output and the message of a failure to standard error, where the arguments of
each run of the bus client follow on lines of their own.
-/

namespace Capsule.Main

/-- The working directory of the host. -/
def directory : String := "work"

/-- Reads all bytes of a stream. -/
partial def readAll (stream : IO.FS.Stream) (soFar : ByteArray := .empty) : IO ByteArray := do
  let more ← stream.read 65536
  if more.isEmpty then pure soFar else readAll stream (soFar ++ more)

/-- The message of a command line that is not carried out. -/
def refusalMessage : Refusal → String
  | .unknownArgument => "unknown argument"
  | .unknownCommand => "unknown command"
  | .noCommand => "no command"
  | .nothing => "no command"
  | .noOperand => "an operand is missing"
  | .noValue => "a value is missing"
  | .badValue => "a value cannot be read"
  | .needlessValue => "an option has a value that takes none"
  | .repeated => "an option is given twice"
  | .helpWanted => "commands: check, render, run, describe, image, pull"
  | .versionWanted => "capsule"

/-- Rehearses a command line on the host that a text describes. -/
def rehearse (text : List UInt8) (words : List String) :
    Except String (Session PreparedClient) := do
  let json ←
    if text.isEmpty then pure (Json.object [])
    else (Json.ofBytes text).mapError fun _ => "the host is not described in JSON"
  ((Rehearsal.ofJson directory json).carryOut words).mapError refusalMessage

end Capsule.Main

/-- Prints what a rehearsal prints, and returns zero if the command succeeds. -/
def main (words : List String) : IO UInt32 := do
  let text ← Capsule.Main.readAll (← IO.getStdin)
  match Capsule.Main.rehearse text.toList words with
  | .error message =>
    IO.eprintln message
    return 2
  | .ok session =>
    IO.print session.output
    for call in session.source.calls do
      IO.eprintln (" ".intercalate call)
    match session.conclusion.message? with
    | none => return 0
    | some message =>
      IO.eprintln message
      return 1
