import Capsule.Rehearsal.Shell
import Capsule.World.Commands

/-!
# Rehearsals

A rehearsal carries a command out on a host that is a value, so that nothing is done to any other.
The host has the usual directories, a few programs that do nothing but end, and whatever files are
put there beside them; a shell script among these is interpreted. The client of the bus has its
runs prepared: each run gives the next of them, and the arguments of every run are kept.

## Main definitions

* `Rehearsal.perform`: what becomes of a program
* `PreparedClient.run`: a run of the bus client
* `Rehearsal`, `Rehearsal.carryOut`: a host and its client, and a command line
-/

namespace Capsule

/-- Puts a directory at a place, and at those on the way to it, unless something is there. -/
def Files.insertParents (files : Files) : Place → Files
  | [] => files
  | name :: parent =>
    let files := files.insertParents parent
    match files.at? (name :: parent) with
    | some _ => files
    | none => files.insert (name :: parent) .directory

/-- Puts an entry at a place, and directories on the way to it. -/
def Files.put (files : Files) (place : Place) (entry : Entry) : Files :=
  (files.insertParents place.tail).insert place entry

/-- A run of the bus client that has been prepared. -/
structure PreparedRun where
  succeeds : Bool := true
  output : List UInt8 := []
  errors : List UInt8 := []
deriving DecidableEq, Repr, Inhabited

/-- A bus client: the runs that are left, and the arguments of those that were made. -/
structure PreparedClient where
  runs : List PreparedRun
  calls : List (List String) := []
deriving DecidableEq, Repr, Inhabited

namespace PreparedClient

/-- A run that was not prepared. -/
def exhausted : PreparedRun :=
  { succeeds := false, errors := Utf8.encode "script exhausted\n" }

/-- The next run. -/
def next (arguments : List String) (c : PreparedClient) : ClientRun × PreparedClient :=
  let r := c.runs.headD exhausted
  (.finished r.succeeds r.output r.errors,
    { runs := c.runs.tail, calls := c.calls ++ [arguments] })

end PreparedClient

namespace Rehearsal

/-- The content of a program that is no script. -/
def machineCode (name : String) : List UInt8 := Utf8.encode ("\x7fELF" ++ name)

/-- The names of the shell. -/
def shellNames : List String := ["sh", "dash", "bash"]

/-- The programs that every host has. -/
def systemPrograms : List String :=
  shellNames ++ ["true", "false", "sleep", "echo", "cat", "env", "kill", "test", "["]

/-- The directories of those programs. -/
def systemSearch : List String := ["/usr/bin", "/bin"]

/-- The directory of the bus client. -/
def clientDirectory : String := "/client"

/-- The files of a host to which nothing has been added. -/
def systemFiles (withClient : Bool) : Files :=
  let program (directory : Place) (files : Files) (name : String) : Files :=
    files.put (name :: directory) (.file (machineCode name) true)
  let files := systemPrograms.foldl (program ["bin", "usr"]) Files.empty
  let files := systemPrograms.foldl (program ["bin"]) files
  let files := files.put ["null", "dev"] (.file [] false)
  let files := (files.insertParents ["tmp"]).insertParents ["client"]
  if withClient then program ["client"] files Client.defaultBinary else files

/-- What a program that is no script comes to. -/
def system (name : String) (arguments : List String) (environment : List (String × String)) :
    Fate :=
  match name, arguments with
  | "true", _ => {}
  | "false", _ => { status := Fate.code 1 }
  | "echo", texts => { output := " ".intercalate texts ++ "\n" }
  | "sleep", [_] => { sleeps := true }
  | "test", texts => { status := Fate.code (Shell.test texts) }
  | "cat", [] => {}
  | "env", [] => {}
  | "env", _ => { status := Fate.code 125 }
  | "sh", [] => {}
  | "sh", "-c" :: script :: rest =>
    Shell.run { name := rest.headD "sh", operands := rest.tail, environment } script.toList
  | "sh", _ => { status := Fate.code 2 }
  | _, _ => { status := Fate.code 1 }

/-- The name of the program behind a file's content; it is nothing for a script. -/
def programName? (content : List UInt8) : Option String :=
  match content with
  | 0x7f :: _ :: _ :: _ :: name =>
    let name := String.ofList (Utf8.lossy name)
    some (if shellNames.contains name then "sh" else name)
  | _ => none

/-- What becomes of a program, or why it is not started. -/
def perform (host : Host) (search : SearchPath) (name : String) (arguments : List String)
    (environment : List (String × String)) : Except FileProblem Fate := do
  let given := arguments ++ environment.map fun v => v.1 ++ v.2
  let content ← search.start host name given
  match programName? content with
  | some program => .ok (system program arguments environment)
  | none =>
    let script := Utf8.lossy content
    let interpreter := Blank.firstWord ((script.drop 2).takeWhile (· ≠ '\n'))
    let content ← host.program (String.ofList interpreter)
    .ok (match programName? content with
      | some "sh" => Shell.run { name, operands := arguments, environment } script
      | some program => system program (name :: arguments) environment
      | none => { status := Fate.code 127 })

/-- Runs the bus client, or what else is found under its name. -/
def runClient (host : Host) (search : SearchPath) (binary : String) (arguments : List String)
    (c : PreparedClient) : ClientRun × PreparedClient :=
  match search.start host binary arguments with
  | .error problem => (.notStarted problem, c)
  | .ok content =>
    if programName? content = some Client.defaultBinary then c.next arguments
    else
      match perform host search binary arguments [] with
      | .error problem => (.notStarted problem, c)
      | .ok fate =>
        (.finished (fate.status = .exited 0) (Utf8.encode fate.output) (Utf8.encode fate.errors), c)

/-- The bus behind a client. -/
def bus (host : Host) (search : SearchPath) (binary : String) : Bus PreparedClient :=
  Client.bus binary (runClient host search binary)

end Rehearsal

/-- A host that is a value, and the client of its bus. -/
structure Rehearsal where
  host : Host
  search : SearchPath
  client : PreparedClient
  architecture : String
  /-- What the environment names for settings. -/
  settingsPath : Option String := none

namespace Rehearsal

/-- The world of a rehearsal. -/
def world (r : Rehearsal) : World PreparedClient where
  host := r.host
  search := r.search
  architecture := r.architecture
  bus := bus r.host r.search Client.defaultBinary
  start program arguments :=
    match perform r.host r.search program arguments [] with
    | .error problem => .error (.notStarted program problem)
    | .ok _ => .ok { pid := some Shell.pid }
  wait program arguments :=
    match perform r.host r.search program arguments [] with
    | .error problem => .error (.process (.notStarted program problem))
    | .ok fate => .ok fate.status
  printed program arguments :=
    match perform r.host r.search program arguments [] with
    | .error _ => []
    | .ok fate => ((fate.output.toList.splitOn '\n').map String.ofList).dropLast
  freshId := TaskId.ofBytes fun _ => 0
  now := default
  patience := 4 * r.client.runs.length + 40

/-- Carries a command line out. -/
def carryOut (r : Rehearsal) (words : List String) : Except Refusal (Session PreparedClient) :=
  (Invocation.read r.settingsPath words).map (r.world.carryOut r.client)

end Rehearsal

end Capsule
