import Capsule.Task.Child
import Capsule.Task.Exit
import Capsule.Task.Id

/-!
# Tasks

A task owns a process that was started for it. It is running until its process has been waited for,
and what the wait gave is its outcome for good.

Anyone may ask a task to wait for its process, at any time and more than once; `claimed` makes sure
that the process is waited for only once. A run of the wait has two steps, with the time that the
process takes between them: `Task.enter` claims the wait, unless it has been claimed or the task has
ended, and `Task.finish` records what came of it. A monitor is such a run that is started in the
background, and `monitored` makes sure that there is only one.

## Total, permissive semantics

The three fields of a `Lifecycle` are written on their own, and nothing in the type keeps a running
task from having an outcome; nor does it keep two runs from waiting for one process. That neither
happens is a matter of the steps.

## Main definitions

* `Lifecycle`: how far a task has come
* `Task.enter`, `Task.finish`, `Task.monitor`, `Task.deliver`: the steps of a task
* `Task.Event`, `Task.step`: what can happen to a task, and what it leads to
* `Task.status`: what is shown of it
-/

namespace Capsule

/-- How far a task has come. -/
structure Lifecycle where
  state : TaskState := .running
  /-- When the task ended. -/
  completedAt : Option Moment := none
  /-- What came of the task. -/
  result : Option ExitResult := none
deriving DecidableEq, Repr, Inhabited

namespace Lifecycle

def isRunning (l : Lifecycle) : Bool := !l.state.isTerminal

/-- What a wait leads to that ended at a time. A failed wait leaves that time as the task's end. -/
def ofWait (now : Moment) : Except Error Exit → Lifecycle
  | .ok exit =>
    { state := .exited
      completedAt := some exit.time
      result := some { code := exit.code, signal := exit.signal } }
  | .error failure =>
    { state := .unknown
      completedAt := some now
      result := some { error := some failure.message } }

end Lifecycle

/-- A task and its process. -/
structure Task where
  id : TaskId
  name : String
  /-- The name under which its machine is registered. -/
  machine : String
  process : Child
  /-- Which of all starts the process came of. -/
  origin : Nat := 0
  startedAt : Moment
  lifecycle : Lifecycle := {}
  /-- A monitor has been started. -/
  monitored : Bool := false
  /-- Runs that have been started and have not begun. -/
  pending : Nat := 0
  /-- The wait for the process has been claimed. -/
  claimed : Bool := false
  /-- Runs that wait for the process. -/
  waiters : Nat := 0
  /-- How often the process has been waited for. -/
  waits : Nat := 0
  /-- The signals that the process has received. -/
  signals : List Signal := []
deriving Repr, Inhabited

/-- What is shown of a task. -/
structure TaskStatus where
  id : TaskId
  name : String
  machine : String
  state : TaskState
  startedAt : Moment
  completedAt : Option Moment
  result : Option ExitResult
deriving DecidableEq, Repr, Inhabited

namespace Task

/-- The task of a process that has just been started. -/
def ofStart (origin : Nat) (id : TaskId) (name machine : String) (process : Child)
    (now : Moment) : Task :=
  { id, name, machine, process, origin, startedAt := now }

variable (t : Task)

/-- The process has not been waited for. -/
def isRunning : Bool := t.lifecycle.isRunning

/-- Some run waits for the process. -/
def waiting : Bool := t.waiters != 0

def status : TaskStatus where
  id := t.id
  name := t.name
  machine := t.machine
  state := t.lifecycle.state
  startedAt := t.startedAt
  completedAt := t.lifecycle.completedAt
  result := t.lifecycle.result

/-- Starts a run in the background, unless that has been done before. Also tells whether it was
started. -/
def monitor : Task × Bool :=
  if t.monitored then (t, false)
  else ({ t with monitored := true, pending := t.pending + 1 }, true)

/-- A run begins: it claims the wait, or returns at once. -/
def enter : Task :=
  if !t.isRunning || t.claimed then t
  else { t with claimed := true, waiters := t.waiters + 1, waits := t.waits + 1 }

/-- A run that was started in the background begins. -/
def enterPending : Task :=
  match t.pending with
  | 0 => t
  | n + 1 => { t with pending := n }.enter

/-- A run that waits for the process learns what became of it. It records that, unless the task has
ended in the meantime. -/
def finish (now : Moment) (outcome : Except Error Exit) : Task :=
  match t.waiters with
  | 0 => t
  | n + 1 =>
    if !t.isRunning then { t with waiters := n }
    else { t with waiters := n, lifecycle := .ofWait now outcome }

/-- Sends a signal to the process, which replies, unless the task has ended. Also tells whether it
was sent. -/
def deliver (s : Signal) (reply : Except Error Unit) : Task × Except Error Bool :=
  if !t.isRunning then (t, .ok false)
  else ({ t with signals := t.signals ++ [s] }, reply.map fun _ => true)

/-- Goes on as far as possible, given what has become of the process. -/
def proceed (now : Moment) (ended : Option (Except Error Exit)) : Task :=
  let t := (List.range t.pending).foldl (fun t _ => t.enterPending) t
  match ended with
  | some outcome => t.finish now outcome
  | none => t

/-- What can happen to a task. -/
inductive Event
  /-- Someone waits for the task. -/
  | run
  /-- Someone starts the monitor. -/
  | monitor
  /-- A run that was started in the background begins. -/
  | begin
  /-- A wait for the process ends. -/
  | finish (outcome : Except Error Exit)
  /-- Someone sends a signal; if the process gets it, it replies. -/
  | signal (signal : Signal) (reply : Except Error Unit)
  /-- Someone looks at the task. -/
  | look
deriving Inhabited

/-- What an event gives back. -/
inductive Response
  | nothing
  | monitoring (started : Bool)
  | signalled (sent : Except Error Bool)
  | seen (status : TaskStatus)
deriving Inhabited

/-- What an event leads to. -/
def step (now : Moment) : Event → Task × Response
  | .run => (t.enter, .nothing)
  | .monitor => (t.monitor.1, .monitoring t.monitor.2)
  | .begin => (t.enterPending, .nothing)
  | .finish outcome => (t.finish now outcome, .nothing)
  | .signal s reply => ((t.deliver s reply).1, .signalled (t.deliver s reply).2)
  | .look => (t, .seen t.status)

/-- The signals that the process gets in an event. -/
def receives : Event → List Signal
  | .signal s _ => if t.isRunning then [s] else []
  | _ => []

end Task

/-- The status as a JSON object. -/
def TaskStatus.toJson (s : TaskStatus) : Json :=
  .object [
    ("id", .string s.id),
    ("name", .string s.name),
    ("machine_name", .string s.machine),
    ("state", .string s.state.name),
    ("started_at", .string s.startedAt.text),
    ("completed_at", match s.completedAt with
      | none => .null
      | some m => .string m.text),
    ("exit_result", match s.result with
      | none => .null
      | some r => ExitResult.record.toJson r)]

end Capsule
