import Capsule.Bus.Client
import Capsule.Config.Load
import Capsule.Poll
import Capsule.Report
import Capsule.World

/-!
# Carrying out commands

Each command is a function of the world. What a command reads comes first, and so a fault there
keeps it from doing anything; only `check` prints before it fails.

Rendering and running go the same way from a configuration to arguments, except that nothing is
fetched for rendering and that the machine keeps the name it has. Running then starts the program,
may look for the machine, which decides nothing, and waits until the task has ended; what came of
the task is what comes of the command.

## Main definitions

* `World.execute`: a command in a world
* `World.carryOut`: an invocation, whose settings are read first
-/

namespace Capsule.World

variable {σ : Type}

/-- A row of a table: the label in a column of its own, and the value. -/
def row (width : Nat) (label value : String) : String :=
  label ++ String.ofList (List.replicate (width - label.length) ' ') ++ " " ++ value

def table (width : Nat) (rows : List (String × String)) : List String :=
  rows.map fun r => row width r.1 r.2

/-- The lines of a report, as a table or as JSON. -/
def report (asJson : Bool) (json : Json) (rows : List String) : List String :=
  if asJson then [json.pretty] else rows

/-- A session that prints nothing and fails. -/
def failure (s : σ) (e : Error) : Session σ := { conclusion := .failed e, source := s }

/-- Reports what the host can do, and fails if a program is missing. -/
def check (w : World σ) (json : Bool) (s : σ) : Session σ :=
  let c := Capabilities.ofHost w.host w.search w.architecture w.versionStatement
  let rows := table 22 [
    ("ARCH", c.architecture),
    ("SYSTEMD RUNNING", Report.yesNo c.systemRunning),
    ("SYSTEMD VERSION", c.systemVersion.getD "-"),
    ("SYSTEMD-NSPAWN", Report.yesNo c.runner),
    ("MACHINECTL", Report.yesNo c.manager)]
  { lines := report json c.toJson rows
    conclusion := match Capabilities.installed w.host w.search with
      | .ok () => .succeeded
      | .error e => .failed e
    source := s }

/-- The arguments for an image at a path. -/
def argumentsAt (w : World σ) (config : Config) (path : String) : Except Error (List String) := do
  config.validate
  config.argumentsAt w.host path

/-- The arguments for the image that is found. Nothing is fetched. -/
def arguments (w : World σ) (config : Config) (s : σ) : Answer (List String) × σ :=
  match config.validate with
  | .error e => (.after 0 (.error e), s)
  | .ok () =>
    let (config, path, s) := config.resolve w.host w.bus s
    (path.map fun found => found.bind fun _ => config.arguments w.host, s)

/-- The lines that show arguments. -/
def argumentLines (lines : Bool) (arguments : List String) : List String :=
  if lines then arguments else [" ".intercalate (Capabilities.runnerName :: arguments)]

/-- Shows the arguments for a configuration. -/
def render (w : World σ) (file : String) (imagePath : Option String) (lines : Bool) (s : σ) :
    Session σ :=
  match Config.load w.host file with
  | .error e => failure s e
  | .ok config =>
    let (answer, s) : Answer (List String) × σ := match imagePath with
      | some path => (.after 0 (argumentsAt w config path), s)
      | none => arguments w config s
    match answer with
    | .never => { conclusion := .unfinished, source := s }
    | .after _ (.error e) => failure s e
    | .after _ (.ok arguments) => { lines := argumentLines lines arguments, source := s }

/-- What a look for the machine of a task adds to the lines. It is never an error. -/
def lookupLines : Lookup → List String
  | .found m _ =>
    ["Machine " ++ m.name ++ " registered, leader PID " ++ toString m.leader.toNat]
  | _ => []

/-- The end of a task whose process has been waited for: its monitor learns what became of the
process, and the task is not tracked any more. -/
def conclude (w : Surroundings) (now : Moment) (s : Supervisor) (position : Nat) (id : TaskId)
    (outcome : Except Error Exit) : Outcome :=
  let s := (s.step w now (.task position .begin)).1
  let s := (s.step w now (.task position (.finish outcome))).1
  (s.step w now (.remove id)).2.2

/-- The last line of a run, and its end. -/
def verdict : Outcome → List String × Conclusion
  | .removed status =>
    let result := status.result.getD {}
    (["Task " ++ status.id ++ " " ++ result.describe],
      if result.isSuccess then .succeeded else .unclean status.id)
  | .failed e => ([], .failed e)
  | _ => ([], .unfinished)

/-- What a run works with: processes are started by the program that the settings name. -/
def surroundings (w : World σ) (settings : Settings) : Surroundings where
  settings := settings
  host := w.host
  launcher _ arguments := w.start settings.binary arguments

/-- Starts a process, and waits for it. -/
def supervise (w : World σ) (settings : Settings) (config : Config) (arguments : List String)
    (name : String) (id : TaskId) (describe : Bool) (now : Nat) (s : σ) : Session σ :=
  let around := surroundings w settings
  match Supervisor.launch around w.now {} id name config arguments with
  | (supervisor, _, .launched position) =>
    let started := ("Started " ++ id ++ " as machine " ++ config.machine) ::
      w.printed settings.binary arguments
    let (seen, s) : Option Lookup × σ :=
      if describe then
        let (course, lookup) :=
          Machine.describe w.bus s config.machine (1000 * settings.describeTimeout) now
        (some lookup, course.source)
      else (none, s)
    match seen with
    | some .silent => { lines := started, conclusion := .unfinished, source := s }
    | some .unshowable => { lines := started, conclusion := .aborted, source := s }
    | _ =>
      let outcome := (w.wait settings.binary arguments).map (·.exit w.now)
      let (last, conclusion) := verdict (conclude around w.now supervisor position id outcome)
      { lines := started ++ seen.elim [] lookupLines ++ last, conclusion, source := s }
  | (_, _, .failed e) => failure s e
  | _ => { conclusion := .unfinished, source := s }

/-- Starts the container of a configuration, and waits until it ends. -/
def run (w : World σ) (settings : Settings) (file name : String) (id : Option TaskId)
    (describe : Bool) (s : σ) : Session σ :=
  match Config.load w.host file with
  | .error e => failure s e
  | .ok config =>
    let id := id.getD w.freshId
    match Preparation.run w.bus settings w.host config id name w.uptime w.patience s with
    | (_, .failed e, _, s) => failure s e
    | (_, .ready config arguments, now, s) =>
      supervise w settings config arguments name id describe now s
    | (_, _, _, s) => { conclusion := .unfinished, source := s }

/-- The table of a machine. -/
def machineRows (m : MachineDescriptor) : List String :=
  table 12 [
    ("NAME", m.name),
    ("CLASS", m.kind),
    ("STATE", m.state),
    ("LEADER", toString m.leader.toNat),
    ("SERVICE", m.service),
    ("UNIT", m.unit),
    ("ROOT", m.rootDirectory),
    ("SINCE", Report.time m.timestamp.toNat)]

/-- Shows what is known of a machine. -/
def describe (w : World σ) (settings : Settings) (machine : String) (timeout : Option Nat)
    (json : Bool) (s : σ) : Session σ :=
  let seconds := timeout.getD settings.describeTimeout
  let (course, lookup) := Machine.describe w.bus s machine (1000 * seconds) w.uptime
  let s := course.source
  match lookup with
  | .found m _ => { lines := report json m.toJson (machineRows m), source := s }
  | .failed e _ => failure s e
  | .silent => { conclusion := .unfinished, source := s }
  | .unshowable => { conclusion := .aborted, source := s }

/-- The table of an image. -/
def imageRows (i : ImageDescriptor) : List String :=
  table 12 [
    ("NAME", i.name),
    ("TYPE", i.kind),
    ("PATH", i.path),
    ("READ-ONLY", Report.yesNo i.readOnly),
    ("USAGE", Report.size i.usage.toNat),
    ("LIMIT", Report.size i.limit.toNat),
    ("CREATED", Report.time i.creationTimestamp.toNat),
    ("MODIFIED", Report.time i.modificationTimestamp.toNat)]

/-- Shows what is known of an image. -/
def image (w : World σ) (name : String) (json : Bool) (s : σ) : Session σ :=
  let (answer, s) := w.bus.describeImage name s
  match answer.map (·.bind ImageDescriptor.ofBag) with
  | .never => { conclusion := .unfinished, source := s }
  | .after _ (.error e) => failure s e
  | .after _ (.ok i) => { lines := report json i.toJson (imageRows i), source := s }

/-- Fetches an image. -/
def pull (w : World σ) (request : PullRequest) (s : σ) : Session σ :=
  match Fetch.run w.bus s request w.uptime w.patience with
  | .refused e _ s => failure s e
  | .silent s => { conclusion := .unfinished, source := s }
  | .watched r =>
    match r.finish with
    | .over _ => { lines := ["Pulled image " ++ request.name], source := r.source }
    | _ => { conclusion := .unfinished, source := r.source }

/-- Carries a command out. -/
def execute (w : World σ) (settings : Settings) (s : σ) : Command → Session σ
  | .check json => check w json s
  | .render config imagePath lines => render w config imagePath lines s
  | .run config name id seen => run w settings config name id seen s
  | .describe machine timeout json => describe w settings machine timeout json s
  | .image name json => image w name json s
  | .pull request => pull w request s

/-- The settings of an invocation. -/
def settings (w : World σ) (i : Invocation) : Except Error Settings :=
  match i.settings with
  | none => .ok {}
  | some path => Settings.load w.host path

/-- Carries an invocation out. -/
def carryOut (w : World σ) (s : σ) (i : Invocation) : Session σ :=
  match w.settings i with
  | .error e => failure s e
  | .ok settings => w.execute settings s i.command

end Capsule.World
