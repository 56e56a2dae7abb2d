import Capsule.Config
import Capsule.Error

/-!
# The argument list of a configuration

What a configuration says, as arguments of the program that runs containers. The list has a fixed
order: the image, flags, settings with one value, maps in key order, and last the command.

* `Config.options`: everything between the image and the command
* `Config.argumentsAt`: the list for an image at a path
* `Config.arguments`: the list for the image that was found before
-/

namespace Capsule.Config

/-- A flag, where it is wanted. -/
def flag (wanted : Bool) (name : String) : List String := if wanted then [name] else []

/-- An option with its value as an argument of its own, unless the value is left out. -/
def option (name value : String) : List String := if value.isEmpty then [] else [name, value]

/-- An option with its value behind an equals sign, unless the value is left out. -/
def assignment (name value : String) : List String :=
  if value.isEmpty then [] else [name ++ "=" ++ value]

/-- An option for each entry of a map. -/
def entries (name separator : String) (m : StringMap) : List String :=
  m.toList.flatMap fun e => [name, e.1 ++ separator ++ e.2]

/-- The flags. -/
def flags (c : Config) : List String :=
  flag c.boot "--boot" ++ flag c.ephemeral "--ephemeral" ++ flag c.processTwo "--as-pid2" ++
  flag c.readOnly "--read-only" ++ flag c.userNamespacing "-U"

/-- The options that come behind the name of the machine. -/
def laterOptions (c : Config) : List String :=
  option "--pivot-root" c.pivotRoot ++ option "--resolv-conf" c.resolvConf ++
  option "--user" c.user ++ assignment "--volatile" c.volatile ++
  option "--chdir" c.workingDirectory ++ option "--network-namespace-path" c.networkNamespace ++
  entries "--bind" ":" c.bind ++ entries "--bind-ro" ":" c.bindReadOnly ++
  entries "-E" "=" c.environment ++
  c.properties.toList.map fun e => "--property=" ++ e.1 ++ "=" ++ e.2

/-- The flags and options. -/
def options (c : Config) : List String :=
  c.flags ++ assignment "--console" c.console ++ option "--machine" c.machine ++ c.laterOptions

/-- How an image is introduced: a directory tree or a disk. -/
def selector : Entry → String
  | .directory => "-D"
  | _ => "-i"

/-- The arguments for an image at a path, which must exist. -/
def argumentsAt (c : Config) (host : Host) (path : String) : Except Error (List String) :=
  if c.image.isEmpty then .error .noImage
  else
    match host.files.entry host.directory path with
    | .error problem => .error (.file path problem)
    | .ok entry => .ok (selector entry :: path :: c.options ++ c.command)

/-- There are arguments where an image is named and something is at the path. -/
theorem argumentsAt_eq_ok_iff {c : Config} {host : Host} {path : String} {words : List String} :
    c.argumentsAt host path = .ok words ↔ c.image ≠ "" ∧
      ∃ entry, host.files.entry host.directory path = .ok entry ∧
        words = selector entry :: path :: (c.options ++ c.command) := by
  rw [argumentsAt]
  split
  · rename_i h
    simp [String.isEmpty_iff.mp h]
  · rename_i h
    have himage : c.image ≠ "" := fun he => h (String.isEmpty_iff.mpr he)
    cases host.files.entry host.directory path with
    | error problem => simp
    | ok entry => simp [himage, eq_comm]

/-- The arguments for the image that was found before. -/
def arguments (c : Config) (host : Host) : Except Error (List String) :=
  match c.imagePath with
  | none => .error (.unresolved c.image)
  | some path => c.argumentsAt host path

end Capsule.Config
