import Capsule.Config.Validation
import Capsule.Config.Arguments
import Capsule.Image
import Capsule.Settings
import Capsule.Task.Id
import Capsule.Watch

/-!
# Preparing a launch

Between a configuration and the argument list that a process can be started with lie four things,
in this order: its rules are checked, its image is pulled if it asks for that and pulling is
allowed, the image is found, and the arguments are put together. Two of them have to wait for the
bus. A preparation is therefore cut at its waits: `Preparation.start` goes up to the first wait,
and `Preparation.resume` from one wait to the next, given what arrived. Between two waits nothing
else happens, so a course of preparations that overlap is a list of such steps.

What a step does outside is in its `Advance`: the call of the bus that is waited for from then on,
and the progress that is reported. Neither is done by a step that fails.

## Main definitions

* `Stage`, `Arrival`: what is waited for, and what arrives
* `Preparation.start`, `Preparation.resume`: the steps
-/

namespace Capsule

/-- What a preparation waits for. -/
inductive Stage
  /-- The bus to start a transfer. -/
  | pulling (request : PullRequest)
  /-- The next tick of a watch. -/
  | pausing (watch : Watch)
  /-- The list of transfers. -/
  | listing (watch : Watch)
  /-- The bus to say where the image is. -/
  | lookingUp
deriving DecidableEq, Repr, Inhabited

/-- What can arrive. -/
inductive Arrival
  | tick
  | pulled (outcome : Except Error StartedTransfer)
  | listed (outcome : Except Error (List Transfer))
  | described (outcome : Except Error PropertyBag)
deriving Inhabited

/-- A preparation that waits. -/
structure Preparation where
  config : Config
  stage : Stage
deriving Repr, Inhabited

/-- Progress of an image that is being fetched. -/
structure Progress where
  image : String
  progress : Double
deriving DecidableEq, Repr, Inhabited

/-- Where a step of a preparation leads. -/
inductive Preparation.Status
  | waiting (preparation : Preparation)
  /-- The configuration, as it is used, and the arguments. -/
  | ready (config : Config) (arguments : List String)
  | failed (error : Error)
deriving Inhabited

/-- A step of a preparation. -/
structure Advance where
  status : Preparation.Status
  /-- The call of the bus that is waited for from now on. -/
  call : Option Call := none
  report : Option Progress := none
deriving Inhabited

namespace Preparation

def fail (e : Error) : Advance := { status := .failed e }

/-- Waits for an answer of the bus. -/
def ask (config : Config) (stage : Stage) (call : Call) : Advance :=
  { status := .waiting ⟨config, stage⟩, call := some call }

/-- Waits for the next tick of a watch. -/
def pause (config : Config) (watch : Watch) : Advance :=
  { status := .waiting ⟨config, .pausing watch⟩ }

/-- Puts the arguments together for an image that has been found at a path. -/
def settle (host : Host) (config : Config) (path : String) : Advance :=
  let config := { config with imagePath := some path }
  match config.arguments host with
  | .ok arguments => { status := .ready config arguments }
  | .error e => fail e

/-- Looks for the image. -/
def locate (host : Host) (config : Config) : Advance :=
  if config.image.isEmpty then fail .noImage
  else
    match Image.onDisk host config.image with
    | .error e => fail e
    | .ok (some path) => settle host config path
    | .ok none => ask config .lookingUp (.describeImage config.image)

/-- The configuration with a name for its machine. -/
def withMachine (config : Config) (id : TaskId) (name : String) : Config :=
  if config.machine.isEmpty then { config with machine := TaskId.machineName id name } else config

/-- What is to be pulled, if anything is. -/
def download? (settings : Settings) (config : Config) : Option Download :=
  if settings.allowDownload then config.download else none

/-- Begins a preparation. -/
def start (settings : Settings) (host : Host) (config : Config) (id : TaskId) (name : String) :
    Advance :=
  match config.validate with
  | .error e => fail e
  | .ok () =>
    let config := withMachine config id name
    match download? settings config with
    | none => locate host config
    | some download =>
      match download.request config.image with
      | .error e => fail e
      | .ok request => ask config (.pulling request) (.pull request)

/-- Goes on with what has arrived at a time. What is not waited for changes nothing. -/
def resume (host : Host) (now : Nat) (p : Preparation) (arrival : Arrival) : Advance :=
  match p.stage, arrival with
  | .pulling _, .pulled (.error e) => fail e
  | .pulling request, .pulled (.ok started) =>
    pause p.config (.start started.id request.name now)
  | .pausing watch, .tick =>
    ask p.config (.listing { watch with ticker := watch.ticker.fired now }) .listTransfers
  | .listing watch, .listed outcome =>
    match Watch.judge watch.id outcome with
    | .over => locate host p.config
    | .active progress =>
      { pause p.config watch with report := progress.map fun d => ⟨watch.image, d⟩ }
  | .lookingUp, .described outcome =>
    match Image.ofAnswer p.config.image outcome with
    | .ok path => settle host p.config path
    | .error e => fail e
  | _, _ => { status := .waiting p }

end Preparation

end Capsule
