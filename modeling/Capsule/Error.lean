import Capsule.Files
import Capsule.Json.Decode

/-!
# What goes wrong

Every failure is a value that says what happened and to what; `Error.message` is the one place
where it is put into words.

* A configuration that breaks a rule is a `Violation`: the rule, and the value that breaks it.
* The bus and the processes are outside; what they report comes as a `BusFailure` or a
  `ProcessFailure`, of which `reported` carries words that are not ours.
* `Error.timeout` keeps the last failure that was retried.
-/

namespace Capsule

/-- The rules that a configuration is held to. -/
inductive Rule
  | volatileMode
  | consoleMode
  | resolvConfMode
  | bootOrProcessTwo
  | volatileOrUserNamespacing
  | readOnlyOrUserNamespacing
  | absoluteWorkingDirectory
  | absolutePivotRoot
  | protectedHostRoot
  | downloadKind
  | downloadVerify
  /-- A kind of image that can be pulled. -/
  | imageKind
  /-- A way of checking that a pull can ask for. -/
  | verifyMode
deriving DecidableEq, Repr, Inhabited

namespace Rule

/-- The setting that a violation is charged to. -/
def field : Rule → String
  | .volatileMode => "volatile"
  | .consoleMode => "console"
  | .resolvConfMode => "resolv_conf"
  | .bootOrProcessTwo => "boot"
  | .volatileOrUserNamespacing => "volatile"
  | .readOnlyOrUserNamespacing => "read_only"
  | .absoluteWorkingDirectory => "working_directory"
  | .absolutePivotRoot => "pivot_root"
  | .protectedHostRoot => "image"
  | .downloadKind => "image_download.type"
  | .downloadVerify => "image_download.verify"
  | .imageKind => "image_download.type"
  | .verifyMode => "image_download.verify"

/-- What the rule asks for. -/
def reason : Rule → String
  | .volatileMode => "must be one of yes, state, overlay, no"
  | .consoleMode => "must be one of interactive, read-only, passive, pipe"
  | .resolvConfMode =>
    "must be one of copy-host, copy-static, bind-host, bind-static, delete, auto"
  | .bootOrProcessTwo => "boot and process_two may not be combined"
  | .volatileOrUserNamespacing => "volatile and user_namespacing may not be combined"
  | .readOnlyOrUserNamespacing => "read_only and user_namespacing may not be combined"
  | .absoluteWorkingDirectory => "not an absolute path"
  | .absolutePivotRoot => "not an absolute path"
  | .protectedHostRoot =>
    "starting a container from the root directory requires ephemeral or volatile"
  | .downloadKind => "must be one of raw, tar"
  | .downloadVerify => "must be one of no, checksum, signature"
  | .imageKind => "unsupported image type, must be one of raw, tar"
  | .verifyMode => "must be one of no, checksum, signature"

end Rule

/-- A value that breaks a rule. -/
structure Violation where
  rule : Rule
  value : String
deriving DecidableEq, Repr, Inhabited

/-- Things that can be missing. -/
inductive Resource
  | image
  | task
  | binary
deriving DecidableEq, Repr, Inhabited

def Resource.name : Resource → String
  | .image => "image"
  | .task => "task"
  | .binary => "binary"

/-- Failures of the bus. -/
inductive BusFailure
  /-- The bus client could not be run. -/
  | notRun (binary : String) (problem : FileProblem)
  /-- The call was refused, with the client's words. -/
  | refused (method : String) (words : String)
  /-- A reply does not have the shape that its call promises. -/
  | unexpected (what : String) (reply : Json)
  | reported (words : String)
deriving Repr, Inhabited

def BusFailure.message : BusFailure → String
  | .notRun binary problem => "failed to run " ++ binary ++ ": " ++ problem.message
  | .refused method words => method ++ " failed: " ++ words
  | .unexpected what reply =>
    "unexpected " ++ what ++ " reply: " ++ reply.compact
  | .reported words => words

/-- Failures of processes and of their bookkeeping. -/
inductive ProcessFailure
  | notStarted (binary : String) (problem : FileProblem)
  | alreadyReaped
  /-- A task with this id is being launched or is tracked. -/
  | idInUse (id : String)
  | stillRunning (id : String)
  | reported (words : String)
deriving DecidableEq, Repr, Inhabited

def ProcessFailure.message : ProcessFailure → String
  | .notStarted binary problem => "failed to spawn " ++ binary ++ ": " ++ problem.message
  | .alreadyReaped => "process has already been reaped"
  | .idInUse id => "task " ++ id ++ " already exists"
  | .stillRunning id => "task " ++ id ++ " is still running"
  | .reported words => words

/-- A failure. -/
inductive Error where
  | file (path : String) (problem : FileProblem)
  | invalid (violation : Violation)
  /-- The configuration names no image. -/
  | noImage
  /-- The image of the configuration has not been looked for. -/
  | unresolved (image : String)
  | missing (resource : Resource) (id : String)
  | process (failure : ProcessFailure)
  /-- Time ran out; `last` is the last failure before that. -/
  | timeout (what : String) (last : Option Error)
  | bus (failure : BusFailure)
  /-- A property is missing or not of the kind that is wanted. -/
  | property (name : String) (expected : String)
  | json (problem : Problem)
  | yaml
deriving Repr, Inhabited

namespace Error

/-- The wording of a failure. -/
def message : Error → String
  | .file path problem => "I/O error at " ++ path ++ ": " ++ problem.message
  | .invalid v =>
    "invalid " ++ v.rule.field ++ " " ++ Quoted.quote v.value ++ ": " ++ v.rule.reason
  | .noImage => "cannot render nspawn arguments: no image configured"
  | .unresolved image =>
    "cannot render nspawn arguments: image " ++ Quoted.quote image ++ " has not been resolved"
  | .missing resource id => resource.name ++ " not found: " ++ id
  | .process failure => "executor error: " ++ failure.message
  | .timeout what none => "timed out while " ++ what ++ ": no failed attempt recorded"
  | .timeout what (some last) => "timed out while " ++ what ++ ": " ++ last.message
  | .bus failure => "bus error: " ++ failure.message
  | .property name expected =>
    "cannot decode property " ++ name ++ ": expected " ++ expected
  | .json problem => "serialization error: " ++ problem.message
  | .yaml => "yaml error"

end Error

end Capsule
