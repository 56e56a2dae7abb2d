import Capsule.Files

/-!
# Programs

A program is a file that may be run. One that is named without a slash is looked for in the
directories of a search path, in their order. Two things are asked there, and they differ:

* `SearchPath.find?`: is the program installed? Only a file that may be run will do.
* `SearchPath.start`: the content of the file that is run, or why none is. Here a file that may
  not be run is passed over as well, but it is remembered: if nothing else is found, it is what is
  wrong.

An argument with a NUL character can be given to no program, and a file that is neither machine
code nor a text with an interpreter is not run.
-/

namespace Capsule

/-- The directories in which programs are looked for, by their paths. -/
structure SearchPath where
  directories : List String
deriving DecidableEq, Repr, Inhabited

/-- The content of the program that a path leads to. -/
def Host.program (host : Host) (path : String) : Except FileProblem (List UInt8) := do
  match ← host.files.entry host.directory path with
  | .file content true => .ok content
  | _ => .error .permissionDenied

namespace SearchPath

/-- The path of a program that is installed. -/
def find? (host : Host) (search : SearchPath) (name : String) : Option String :=
  (search.directories.map (Path.join · name)).find? fun path => (host.program path).toBool

/-- The content of the first program among some paths; `denied` tells that a file has been found
that may not be run. -/
def first (host : Host) : (denied : Bool) → List String → Except FileProblem (List UInt8)
  | denied, [] => .error (if denied then .permissionDenied else .notFound)
  | denied, path :: paths =>
    match host.program path with
    | .ok content => .ok content
    | .error .permissionDenied => first host true paths
    | .error .notFound => first host denied paths
    | .error .notDirectory => first host denied paths
    | .error problem => .error problem

/-- The content of the file that a name stands for. -/
def lookUp (host : Host) (search : SearchPath) (name : String) :
    Except FileProblem (List UInt8) :=
  if name.isEmpty then .error .notFound
  else if '/' ∈ name.toList then host.program name
  else if Files.nameLimit < name.utf8ByteSize then .error .nameTooLong
  else first host false (search.directories.map (Path.join · name))

/-- Whether a file is in a form in which programs are: it is machine code, or a text that begins by
naming the program that understands it. -/
def isProgram (content : List UInt8) : Bool :=
  (Utf8.encode "#!").isPrefixOf content || (Utf8.encode "\x7fELF").isPrefixOf content

/-- The content of the program that is run for a name with arguments. -/
def start (host : Host) (search : SearchPath) (name : String) (arguments : List String) :
    Except FileProblem (List UInt8) :=
  if (name :: arguments).any fun a => '\x00' ∈ a.toList then .error .nulInArgument
  else do
    let content ← lookUp host search name
    if isProgram content then .ok content else .error .notProgram

end SearchPath

end Capsule
