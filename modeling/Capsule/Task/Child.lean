import Capsule.Error
import Capsule.Time.Calendar

/-!
# Child processes

A process that was started belongs to whoever started it until it has been waited for. From then
on its number may belong to another process, and so it is forgotten: `Child.reaped` has no number,
and no signal is sent to it.
-/

namespace Capsule

/-- A signal, by its name. -/
structure Signal where
  name : String
deriving DecidableEq, Repr, Inhabited

/-- How a process ended. -/
structure Exit where
  /-- The code that it gave, `-1` if a signal ended it. -/
  code : Int
  /-- The signal that ended it, `0` if none did. -/
  signal : Int
  time : Moment
deriving DecidableEq, Repr, Inhabited

/-- How a process ended, as the system tells it. -/
inductive WaitStatus
  | exited (code : UInt8)
  | killed (signal : UInt8)
deriving DecidableEq, Repr, Inhabited

/-- The end of a process that was noticed at a time. -/
def WaitStatus.exit (time : Moment) : WaitStatus → Exit
  | .exited code => ⟨code.toNat, 0, time⟩
  | .killed signal => ⟨-1, signal.toNat, time⟩

/-- A process that has been started. -/
structure Child where
  pid : Option Nat := none
  /-- Why signals do not reach the process, if they do not. -/
  unreachable : Option ProcessFailure := none
deriving DecidableEq, Repr, Inhabited

namespace Child

/-- A process that has been waited for. -/
def reaped : Child := { unreachable := some .alreadyReaped }

/-- What comes of sending a signal. -/
def signal (c : Child) : Except Error Unit :=
  match c.unreachable with
  | some failure => .error (.process failure)
  | none => .ok ()

end Child

end Capsule
