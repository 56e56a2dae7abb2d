import Capsule.Error
import Capsule.Programs
import Capsule.SystemVersion

/-!
# What a host can do

Containers can be run where two programs are installed: the one that runs them, and the one that
manages machines. The service manager is looked at only to tell its version: it is running if its
directory is there, and only then it is asked.
-/

namespace Capsule

/-- What a host has for running containers. -/
structure Capabilities where
  architecture : String
  /-- The program that runs containers is installed. -/
  runner : Bool
  /-- The program that manages machines is installed. -/
  manager : Bool
  /-- The service manager is running. -/
  systemRunning : Bool
  /-- The major version of the service manager. -/
  systemVersion : Option String
deriving DecidableEq, Repr, Inhabited

namespace Capabilities

/-- The program that runs containers. -/
def runnerName : String := "systemd-nspawn"

/-- The program that manages machines. -/
def managerName : String := "machinectl"

/-- The programs that have to be installed. -/
def requiredPrograms : List String := [runnerName, managerName]

/-- The directory that is there while the service manager is running. -/
def systemDirectory : String := "/run/systemd/system"

/-- Whether the service manager is running. -/
def isSystemRunning (host : Host) : Bool :=
  match host.files.entry host.directory systemDirectory with
  | .ok .directory => true
  | _ => false

/-- What a host has. `statement` is what the service manager says of its version, if it says
anything. -/
def ofHost (host : Host) (search : SearchPath) (architecture : String)
    (statement : Option String) : Capabilities where
  architecture := architecture
  runner := (search.find? host runnerName).isSome
  manager := (search.find? host managerName).isSome
  systemRunning := isSystemRunning host
  systemVersion :=
    if isSystemRunning host then
      (statement.bind fun s => SystemVersion.major? s.toList).map String.ofList
    else none

/-- Whether all programs that are needed are installed; the first that is not is reported. -/
def installed (host : Host) (search : SearchPath) : Except Error Unit :=
  match requiredPrograms.find? fun name => (search.find? host name).isNone with
  | some name => .error (.missing .binary name)
  | none => .ok ()

/-- The capabilities as a JSON object. -/
def toJson (c : Capabilities) : Json :=
  .object [
    ("arch", .string c.architecture),
    ("nspawn_available", .bool c.runner),
    ("machinectl_available", .bool c.manager),
    ("systemd_running", .bool c.systemRunning),
    ("systemd_version", match c.systemVersion with
      | some v => .string v
      | none => .null)]

end Capabilities

end Capsule
