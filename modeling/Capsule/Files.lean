import Capsule.Text.Utf8

/-!
# Files

The part of a host's file system that a decision can depend on, as a value: what stands at each
place. A place is the list of names on the way to it from the root, the innermost first, and holds
neither `.` nor `..` nor a link on the way; a path is a text, which `Files.place` leads to a place.

Following a path costs one name at a time, and each link met on the way puts the names of its
target in front of those that are left. At most forty links are followed for one path, which is
what ends a walk through links that lead back to themselves.

## Main definitions

* `Files.place`: the place that a path leads to, or the problem met on the way
* `Files.entry`: what stands there
* `Files.read`: the text of a file
* `Path.isAbsolute`, `Path.join`, `Path.extension?`: what is decided on a path's text alone
-/

namespace Capsule

/-- Why a path cannot be used. -/
inductive FileProblem
  | notFound
  | notDirectory
  | isDirectory
  | nameTooLong
  | tooManyLinks
  | permissionDenied
  /-- The bytes of the file are not text. -/
  | notText
  /-- The path has a NUL character. -/
  | nulInPath
  /-- An argument of a program has a NUL character. -/
  | nulInArgument
  /-- The file that is to be run is in no form in which programs are. -/
  | notProgram
deriving DecidableEq, Repr, Inhabited

/-- The system's wording of a problem. -/
def FileProblem.message : FileProblem → String
  | .notFound => "No such file or directory (os error 2)"
  | .notDirectory => "Not a directory (os error 20)"
  | .isDirectory => "Is a directory (os error 21)"
  | .nameTooLong => "File name too long (os error 36)"
  | .tooManyLinks => "Too many levels of symbolic links (os error 40)"
  | .permissionDenied => "Permission denied (os error 13)"
  | .notText => "stream did not contain valid UTF-8"
  | .nulInPath => "file name contained an unexpected NUL byte"
  | .nulInArgument => "nul byte found in provided data"
  | .notProgram => "Exec format error (os error 8)"

namespace Path

/-- A path from the root. -/
def isAbsolute (path : String) : Bool := path.toList.head? == some '/'

/-- The names of a path, with empty ones where slashes follow each other or end it. -/
def names (path : String) : List String :=
  (path.toList.splitOn '/').map String.ofList

/-- A path taken from a directory; an absolute one stays as it is. -/
def join (base path : String) : String :=
  if isAbsolute path || base.isEmpty then path
  else if base.toList.getLast? == some '/' then base ++ path
  else base ++ "/" ++ path

/-- The name that a path ends in, unless that is `..`. -/
def fileName? (path : String) : Option String :=
  match ((names path).filter fun n => n ≠ "" ∧ n ≠ ".").getLast? with
  | some ".." => none
  | name => name

/-- What follows the last dot of the name that a path ends in, if something stands before that
dot. -/
def extension? (path : String) : Option String := do
  let name ← fileName? path
  let reversed := name.toList.reverse
  match reversed.dropWhile (· ≠ '.') with
  | [] => none
  | ['.'] => none
  | _ => some (String.ofList (reversed.takeWhile (· ≠ '.')).reverse)

end Path

/-- What can stand at a place. -/
inductive Entry
  | directory
  | file (content : List UInt8) (executable : Bool)
  | link (target : String)
deriving DecidableEq, Repr, Inhabited

/-- The names on the way from the root to a place, the innermost first. -/
abbrev Place := List String

/-- A file system. The root is a directory whatever `at?` says of it. -/
structure Files where
  at? : Place → Option Entry

namespace Files

/-- Nothing but the root. -/
def empty : Files := ⟨fun _ => none⟩

instance : Inhabited Files := ⟨empty⟩

/-- The files with one more entry. -/
def insert (files : Files) (place : Place) (entry : Entry) : Files :=
  ⟨fun p => if p = place then some entry else files.at? p⟩

/-- Whether a place is a directory. -/
def isDirectory (files : Files) : Place → Bool
  | [] => true
  | p => files.at? p == some .directory

/-- How many links may be followed on one way. -/
def linkLimit : Nat := 40

/-- The longest name, in bytes. -/
def nameLimit : Nat := 255

/-- The length in bytes that no path may reach. -/
def pathLimit : Nat := 4096

/-- Follows the names from a place, with so many links left to follow. -/
def walk (files : Files) (links : Nat) (here : Place) (names : List String) :
    Except FileProblem Place :=
  match names with
  | [] => .ok here
  | name :: rest =>
    if !files.isDirectory here then .error .notDirectory
    else if name = "" ∨ name = "." then walk files links here rest
    else if name = ".." then walk files links here.tail rest
    else if nameLimit < name.utf8ByteSize then .error .nameTooLong
    else
      match files.at? (name :: here) with
      | none => .error .notFound
      | some (.link target) =>
        match links with
        | 0 => .error .tooManyLinks
        | links + 1 =>
          walk files links (if Path.isAbsolute target then [] else here) (Path.names target ++ rest)
      | some _ => walk files links (name :: here) rest
termination_by (links, names.length)

/-- The place that a path leads to from a working directory. -/
def place (files : Files) (cwd : Place) (path : String) : Except FileProblem Place :=
  if '\x00' ∈ path.toList then .error .nulInPath
  else if path.isEmpty then .error .notFound
  else if pathLimit ≤ path.utf8ByteSize then .error .nameTooLong
  else files.walk linkLimit (if Path.isAbsolute path then [] else cwd) (Path.names path)

/-- What stands where a path leads to. -/
def entry (files : Files) (cwd : Place) (path : String) : Except FileProblem Entry := do
  let p ← files.place cwd path
  if files.isDirectory p then .ok .directory
  else
    match files.at? p with
    | some e => .ok e
    | none => .error .notFound

/-- Whether a path leads to anything. -/
def leads (files : Files) (cwd : Place) (path : String) : Bool :=
  (files.entry cwd path).toBool

/-- The text of a file. -/
def read (files : Files) (cwd : Place) (path : String) : Except FileProblem (List Char) := do
  match ← files.entry cwd path with
  | .file content _ =>
    match Utf8.decode? content with
    | some text => .ok text
    | none => .error .notText
  | _ => .error .isDirectory

end Files

/-- A host: its files, and the directory that relative paths start from.

All names are texts here; those that are not UTF-8 are left out. So is what a relative path leads to
in a directory that has been removed. -/
structure Host where
  files : Files
  directory : Place
  /-- The path of that directory, as the system gives it. It cannot be had when the directory has
  been removed, or when one on the way to it may not be read. -/
  directoryPath : Except FileProblem String

end Capsule
