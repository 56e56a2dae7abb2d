import Capsule.Record

/-!
# How tasks end

A task is running until its process has been waited for. Then it has either ended, with an exit code
and a signal, or nothing is known of its end but why waiting failed.
-/

namespace Capsule

/-- The phases of a task. -/
inductive TaskState
  | running
  | exited
  /-- Waiting for the process failed. -/
  | unknown
deriving DecidableEq, Repr, Inhabited

namespace TaskState

def all : List TaskState := [.running, .exited, .unknown]

def name : TaskState → String
  | .running => "running"
  | .exited => "exited"
  | .unknown => "unknown"

/-- Whether a task stays in the phase. -/
def isTerminal : TaskState → Bool
  | .running => false
  | _ => true

/-- The phase with a name. -/
def ofName? (name : String) : Option TaskState := all.find? (·.name == name)

/-- The name of a phase, as a JSON value. -/
def decodeName : Doc → Decoded String := Decode.variant (all.map name)

end TaskState

/-- The outcome of a task that has ended. -/
structure ExitResult where
  /-- The code that the process gave, `-1` if a signal ended it. -/
  code : Int := 0
  /-- The signal that ended the process, `0` if none did. -/
  signal : Int := 0
  /-- Why the process could not be waited for. -/
  error : Option String := none
deriving DecidableEq, Repr, Inhabited

namespace ExitResult

/-- The process ended on its own and gave the code zero. -/
def isSuccess (r : ExitResult) : Bool := r.code = 0 && r.signal = 0 && r.error.isNone

/-- The outcome in words. -/
def describe (r : ExitResult) : String :=
  match r.error with
  | some reason => "failed: " ++ reason
  | none =>
    if r.signal ≠ 0 then "killed by signal " ++ String.ofList (Json.intChars r.signal)
    else "exited with code " ++ String.ofList (Json.intChars r.code)

/-- The table of an outcome's fields. -/
def record : Record ExitResult where
  title := "struct ExitResult"
  default := {}
  fields := [
    .of "exit_code" .int32 ⟨(·.code), fun v r => { r with code := v }⟩,
    .of "signal" .int32 ⟨(·.signal), fun v r => { r with signal := v }⟩,
    .of "error" .nullableText ⟨(·.error), fun v r => { r with error := v }⟩]
  required := ["exit_code", "signal"]

end ExitResult

end Capsule
