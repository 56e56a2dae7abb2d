import Capsule.Capabilities
import Capsule.Command
import Capsule.Schedule

/-!
# What commands work with, and what comes of them

A `World` is everything that a command depends on: the host's files, where programs are found, the
bus, and what comes of starting a program and of waiting for it. A command prints lines and ends;
a `Session` is both, with the bus behind it.
-/

namespace Capsule

/-- Everything that a command depends on. -/
structure World (σ : Type) where
  host : Host
  search : SearchPath
  architecture : String
  /-- What the service manager says of its version, if it says anything. -/
  versionStatement : Option String := none
  bus : Bus σ
  /-- What comes of starting a program with arguments. -/
  start : String → List String → Except ProcessFailure Child
  /-- What comes of waiting for a program that was started with arguments. -/
  wait : String → List String → Except Error WaitStatus
  /-- The lines that a program with arguments prints, among the command's own. -/
  printed : String → List String → List String := fun _ _ => []
  /-- An id for a task that is given none. -/
  freshId : TaskId
  /-- The time that is put down for what happens to a task. -/
  now : Moment
  /-- What the clock shows when a command begins, in milliseconds. It has run since the system was
  started. -/
  uptime : Nat := 0
  /-- How many steps of what may go on forever are followed. -/
  patience : Nat

/-- How a command ends. -/
inductive Conclusion
  | succeeded
  | failed (error : Error)
  /-- The task ended, but not well. -/
  | unclean (id : TaskId)
  /-- The clock cannot show a time that is needed. -/
  | aborted
  /-- What is waited for never comes, or has not come in time. -/
  | unfinished
deriving Inhabited

/-- What a command has printed, how it ended, and the bus behind it. -/
structure Session (σ : Type) where
  lines : List String := []
  conclusion : Conclusion := .succeeded
  source : σ

/-- The printed text: each line with a line break behind it. -/
def Session.output {σ : Type} (s : Session σ) : String :=
  String.join (s.lines.map (· ++ "\n"))

/-- The message of a conclusion, if there is one. -/
def Conclusion.message? : Conclusion → Option String
  | .succeeded => none
  | .failed e => some e.message
  | .unclean id => some ("task " ++ id ++ " did not exit cleanly")
  | .aborted => some "the time to wait is too long"
  | .unfinished => some "nothing more happens"

end Capsule
