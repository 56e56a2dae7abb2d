import Capsule.Bus.Call
import Capsule.Bus.Reply
import Capsule.Json.Bytes
import Capsule.Text.Blank

/-!
# The bus client

The bus is reached through a program, the client, which is run anew for each method that is called,
and prints the reply as JSON. Two of the four calls take two methods: the manager is asked for the
object of a name, and that object for its properties.

A call is therefore a `Dialogue`: it is done, or it wants the client to be run and goes on with what
came of that. No dialogue depends on how the client is run, and none is longer than two runs. The
first thing that goes wrong ends it: the client is not run, or refuses, or prints no JSON, or prints
JSON of another shape.

## Main definitions

* `Method`, `Method.arguments`: a method, and the arguments with which the client calls it
* `Dialogue.describeMachine`, `.describeImage`, `.listTransfers`, `.pull`: the four calls
* `Dialogue.run`: a dialogue with a client that has a state
* `Client.bus`: the bus behind a client
-/

namespace Capsule

/-- A method of an object on the bus, and what it is given. -/
structure Method where
  service : String
  object : String
  interface : String
  name : String
  /-- The signature of what is given, and the values, or nothing at all. -/
  given : List String := []
deriving DecidableEq, Repr, Inhabited

namespace Method

/-- The arguments of the client for a call. -/
def arguments (m : Method) : List String :=
  ["--system", "--json=short", "call", m.service, m.object, m.interface, m.name] ++ m.given

/-- The name of a method, with that of its interface. -/
def fullName (m : Method) : String := m.interface ++ "." ++ m.name

/-- A method of the manager of machines and images. -/
def ofMachineManager (name : String) (given : List String := []) : Method :=
  ⟨"org.freedesktop.machine1", "/org/freedesktop/machine1", "org.freedesktop.machine1.Manager",
    name, given⟩

/-- A method of the manager of transfers. -/
def ofImportManager (name : String) (given : List String := []) : Method :=
  ⟨"org.freedesktop.import1", "/org/freedesktop/import1", "org.freedesktop.import1.Manager",
    name, given⟩

/-- All properties of an object that has an interface. -/
def allProperties (object interface : String) : Method :=
  ⟨"org.freedesktop.machine1", object, "org.freedesktop.DBus.Properties", "GetAll",
    ["s", interface]⟩

/-- The start of a transfer. -/
def pull (r : PullRequest) : Method :=
  let name := match r.kind with
    | .tar => "PullTar"
    | .raw => "PullRaw"
  ofImportManager name ["sssb", r.url, r.name, r.verify.name, if r.force then "true" else "false"]

end Method

/-- What comes of running the client. -/
inductive ClientRun
  | notStarted (problem : FileProblem)
  | finished (succeeded : Bool) (output errors : List UInt8)
deriving DecidableEq, Repr, Inhabited

/-- What the client has printed, trimmed, where it is not known to be text. -/
def ClientRun.words (errors : List UInt8) : String :=
  String.ofList (Blank.trim (Utf8.lossy errors))

/-- The reply that a run of the client has brought. -/
def Method.reply (binary : String) (m : Method) : ClientRun → Except Error Json
  | .notStarted problem => .error (.bus (.notRun binary problem))
  | .finished false _ errors => .error (.bus (.refused m.fullName (ClientRun.words errors)))
  | .finished true output _ => (Json.ofBytes output).mapError .json

/-- A call of the bus, by way of the client. -/
inductive Dialogue (α : Type)
  | done (outcome : Except Error α)
  /-- The client is to be run; with what came of it the dialogue goes on. -/
  | call (method : Method) (next : ClientRun → Dialogue α)

namespace Dialogue

variable {α β σ : Type}

/-- Goes on with a value, unless there is none. -/
def proceed (next : α → Dialogue β) : Except Error α → Dialogue β
  | .ok a => next a
  | .error e => .done (.error e)

/-- Calls one method, and reads its reply. -/
def single (binary : String) (m : Method) (read : Json → Except Error α) : Dialogue α :=
  .call m fun r => .done ((m.reply binary r).bind read)

/-- Asks for an object, and then for its properties. -/
def describe (binary : String) (m : Method) (interface : String) : Dialogue PropertyBag :=
  .call m fun r =>
    proceed (fun object => single binary (.allProperties object interface) Reply.properties)
      ((m.reply binary r).bind Reply.objectPath)

/-- The properties of a machine. -/
def describeMachine (binary name : String) : Dialogue PropertyBag :=
  describe binary (.ofMachineManager "GetMachine" ["s", name]) "org.freedesktop.machine1.Machine"

/-- The properties of an image. -/
def describeImage (binary name : String) : Dialogue PropertyBag :=
  describe binary (.ofMachineManager "GetImage" ["s", name]) "org.freedesktop.machine1.Image"

/-- The transfers that are going on. -/
def listTransfers (binary : String) : Dialogue (List Transfer) :=
  single binary (.ofImportManager "ListTransfers") Reply.transfers

/-- Starts a transfer. -/
def pull (binary : String) (r : PullRequest) : Dialogue StartedTransfer :=
  single binary (.pull r) Reply.started

/-- A dialogue with a client. Gives the methods that were called, too. -/
def run (client : List String → σ → ClientRun × σ) :
    Dialogue α → σ → Except Error α × List Method × σ
  | .done outcome, s => (outcome, [], s)
  | .call m next, s =>
    let (r, s) := client m.arguments s
    let (outcome, methods, s) := (next r).run client s
    (outcome, m :: methods, s)

/-- What a dialogue answers; the client takes no time. -/
def answer (client : List String → σ → ClientRun × σ) (d : Dialogue α) (s : σ) : Answer α × σ :=
  let (outcome, _, s) := d.run client s
  (.after 0 outcome, s)

end Dialogue

/-- The program that is the client, by default. -/
def Client.defaultBinary : String := "busctl"

/-- The bus behind a client: its program, and what comes of running it with arguments. -/
def Client.bus {σ : Type} (binary : String) (client : List String → σ → ClientRun × σ) : Bus σ where
  describeMachine name := (Dialogue.describeMachine binary name).answer client
  describeImage name := (Dialogue.describeImage binary name).answer client
  listTransfers := (Dialogue.listTransfers binary).answer client
  pull r := (Dialogue.pull binary r).answer client

end Capsule
