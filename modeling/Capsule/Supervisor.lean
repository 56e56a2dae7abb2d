import Capsule.Preparation
import Capsule.Task
import Capsule.TextMap

/-!
# The supervisor

The supervisor launches containers and keeps track of their tasks. Launches overlap: each waits
for the bus on its way, and while one waits others begin, go on or are given up. The state is
therefore moved by events, one for each stretch between two waits, and every order of events is a
course that can happen.

A launch reserves its id in the beginning and gives it back when it has failed, has been given up
or has led to a tracked task. A launch whose id is reserved or tracked is refused before it does
anything. Nothing in the types ties `reserved` to the launches that wait, or keeps an id from being
reserved and tracked at once: the steps do.

Tasks are kept for good in the order in which their processes were started, so that a task's
position stands for its handle; `tracked` says which of them is found under an id. Removing an id
leaves the task where it is, for whoever still holds it.

## Main definitions

* `Event`, `Supervisor.step`: what can happen, and what it leads to
* `Effects`: what an event does outside: calls of the bus, reports, starts, signals
* `Outcome`: what an event gives back
-/

namespace Capsule

/-- What a supervisor works with. -/
structure Surroundings where
  settings : Settings
  host : Host
  /-- What comes of the n-th start of a process, with its arguments. -/
  launcher : Nat → List String → Except ProcessFailure Child

/-- A launch that waits. -/
structure Launch where
  /-- How many launches had begun before. -/
  ticket : Nat
  id : TaskId
  name : String
  preparation : Preparation
deriving Repr, Inhabited

/-- A process that was started. -/
structure Started where
  /-- Which of all starts it was. -/
  number : Nat
  /-- The id of the launch. -/
  id : TaskId
  process : Child
deriving DecidableEq, Repr, Inhabited

/-- What an event does outside. -/
structure Effects where
  calls : List Call := []
  reports : List Progress := []
  /-- The argument lists with which processes were started, or were to be. -/
  starts : List (List String) := []
  /-- The processes that came of these starts. -/
  started : List Started := []
  /-- Signals, each with the position of the task that received it. -/
  signals : List (Nat × Signal) := []
deriving Inhabited

/-- What an event gives back. -/
inductive Outcome
  /-- The launch waits; the ticket under which it goes on. -/
  | waiting (ticket : Nat)
  /-- The position of the task that was launched. -/
  | launched (position : Nat)
  | signalled (sent : Bool)
  | removed (status : TaskStatus)
  /-- The position of the task that was looked for. -/
  | found (position : Option Nat)
  | listed (statuses : List TaskStatus)
  | monitoring (started : Bool)
  | seen (status : TaskStatus)
  | failed (error : Error)
  | nothing
deriving Inhabited

/-- What an event of a task gives back. -/
def Outcome.ofResponse : Task.Response → Outcome
  | .nothing => .nothing
  | .monitoring started => .monitoring started
  | .signalled (.ok sent) => .signalled sent
  | .signalled (.error e) => .failed e
  | .seen status => .seen status

/-- The state of a supervisor. -/
structure Supervisor where
  /-- The launches that wait. -/
  launches : List Launch := []
  /-- The ids of launches that have begun and not ended. -/
  reserved : List TaskId := []
  /-- All tasks, in the order in which their processes were started. -/
  tasks : List Task := []
  /-- The position of the task that is tracked under an id. -/
  tracked : TextMap Nat := .empty
  /-- How many launches have begun. -/
  begun : Nat := 0
  /-- How often a process was to be started. -/
  starts : Nat := 0
deriving Inhabited

namespace Supervisor

/-- The id is reserved or tracked. -/
def isTaken (s : Supervisor) (id : TaskId) : Bool :=
  s.reserved.contains id || (s.tracked.get? id).isSome

/-- The task that is tracked under an id, with its position. -/
def task? (s : Supervisor) (id : TaskId) : Option (Nat × Task) := do
  let position ← s.tracked.get? id
  let task ← s.tasks[position]?
  pure (position, task)

/-- The state of all tracked tasks, in the order of their ids. -/
def statuses (s : Supervisor) : List TaskStatus :=
  (s.tracked.toList.filterMap fun e => (s.tasks[e.2]?).map Task.status).mergeSort
    fun a b => a.id ≤ b.id

/-- Reserves an id. -/
def reserve (s : Supervisor) (id : TaskId) : Supervisor := { s with reserved := id :: s.reserved }

/-- Gives a reserved id back. -/
def release (s : Supervisor) (id : TaskId) : Supervisor :=
  { s with reserved := s.reserved.filter (· ≠ id) }

/-- What a step leads to. -/
abbrev Result := Supervisor × Effects × Outcome

/-- Starts the process of a launch that has been prepared, and tracks its task. -/
def launch (w : Surroundings) (now : Moment) (s : Supervisor) (id : TaskId) (name : String)
    (config : Config) (arguments : List String) : Result :=
  match w.launcher s.starts arguments with
  | .error failure =>
    ({ s with starts := s.starts + 1 }, { starts := [arguments] }, .failed (.process failure))
  | .ok process =>
    let task := Task.ofStart s.starts id name config.machine process now
    ({ s with
        starts := s.starts + 1
        tasks := s.tasks ++ [task.monitor.1]
        tracked := s.tracked.insert id s.tasks.length },
      { starts := [arguments], started := [⟨s.starts, id, process⟩] }, .launched s.tasks.length)

/-- Takes a launch up again behind a step of its preparation. Its id stays reserved for as long as
it waits. -/
def advance (w : Surroundings) (now : Moment) (s : Supervisor) (ticket : Nat) (id : TaskId)
    (name : String) (a : Advance) : Result :=
  let effects : Effects := { calls := a.call.toList, reports := a.report.toList }
  match a.status with
  | .failed e => (s.release id, effects, .failed e)
  | .waiting preparation =>
    ({ s with launches := s.launches ++ [{ ticket, id, name, preparation }] }, effects,
      .waiting ticket)
  | .ready config arguments =>
    let (s, launched, outcome) := launch w now s id name config arguments
    (s.release id, { effects with starts := launched.starts, started := launched.started }, outcome)

/-- Begins a launch. -/
def start (w : Surroundings) (now : Moment) (s : Supervisor) (id : TaskId) (name : String)
    (config : Config) : Result :=
  if s.isTaken id then (s, {}, .failed (.process (.idInUse id)))
  else
    advance w now { s.reserve id with begun := s.begun + 1 } s.begun id name
      (Preparation.start w.settings w.host config id name)

/-- The launch that waits under a ticket. -/
def launch? (s : Supervisor) (ticket : Nat) : Option Launch :=
  s.launches.find? (·.ticket == ticket)

/-- Takes a launch from those that wait. -/
def withdraw (s : Supervisor) (ticket : Nat) : Supervisor :=
  { s with launches := s.launches.filter (·.ticket != ticket) }

/-- Goes on with a launch. -/
def resume (w : Surroundings) (now : Moment) (time : Nat) (s : Supervisor) (ticket : Nat)
    (arrival : Arrival) : Result :=
  match s.launch? ticket with
  | none => (s, {}, .nothing)
  | some l =>
    advance w now (s.withdraw ticket) ticket l.id l.name (l.preparation.resume w.host time arrival)

/-- Gives a launch up. -/
def abandon (s : Supervisor) (ticket : Nat) : Supervisor :=
  match s.launch? ticket with
  | none => s
  | some l => (s.withdraw ticket).release l.id

/-- Something happens to the task at a position. -/
def touch (now : Moment) (s : Supervisor) (position : Nat) (e : Task.Event) : Result :=
  match s.tasks[position]? with
  | none => (s, {}, .nothing)
  | some t =>
    ({ s with tasks := s.tasks.set position (t.step now e).1 },
      { signals := (t.receives e).map (position, ·) }, .ofResponse (t.step now e).2)

/-- Sends a signal to a tracked task; if its process gets it, that replies. -/
def signal (now : Moment) (s : Supervisor) (id : TaskId) (signal : Signal)
    (reply : Except Error Unit) : Result :=
  match s.task? id with
  | none => (s, {}, .failed (.missing .task id))
  | some (position, _) => s.touch now position (.signal signal reply)

/-- Stops tracking a task that has ended. -/
def remove (s : Supervisor) (id : TaskId) : Result :=
  match s.task? id with
  | none => (s, {}, .failed (.missing .task id))
  | some (_, t) =>
    if t.isRunning then (s, {}, .failed (.process (.stillRunning id)))
    else ({ s with tracked := s.tracked.erase id }, {}, .removed t.status)

end Supervisor

/-- What can happen to a supervisor. -/
inductive Event
  | start (id : TaskId) (name : String) (config : Config)
  | resume (ticket : Nat) (time : Nat) (arrival : Arrival)
  | abandon (ticket : Nat)
  /-- Someone sends a signal; if a process gets it, it replies. -/
  | signal (id : TaskId) (signal : Signal) (reply : Except Error Unit)
  | remove (id : TaskId)
  | find (id : TaskId)
  | list
  /-- Something happens to the task at a position: its monitor goes on, or someone who holds the
  task does something with it. -/
  | task (position : Nat) (event : Task.Event)
deriving Inhabited

/-- What an event leads to. -/
def Supervisor.step (w : Surroundings) (now : Moment) (s : Supervisor) :
    Event → Supervisor.Result
  | .start id name config => s.start w now id name config
  | .resume ticket time arrival => s.resume w now time ticket arrival
  | .abandon ticket => (s.abandon ticket, {}, .nothing)
  | .signal id signal reply => s.signal now id signal reply
  | .remove id => s.remove id
  | .find id => (s, {}, .found (s.tracked.get? id))
  | .list => (s, {}, .listed s.statuses)
  | .task position event => s.touch now position event

end Capsule
