import Capsule.Command.Form
import Capsule.Task.Id

/-!
# Commands

There are six commands, each with a form of its own. Settings can be named on both sides of a
command, and by the environment where they are named nowhere else; behind the command wins. Two
commands have a configuration as their operand and know no option for settings. For these the
settings are read from that same file, whatever is named elsewhere.

## Main definitions

* `Command`: what is to be done
* `Invocation.read`: a command, and where its settings come from, out of the words of a command
  line
-/

namespace Capsule

/-- What is to be done. -/
inductive Command
  /-- Report what the host can do. -/
  | check (json : Bool)
  /-- Show how the container of a configuration would be started. -/
  | render (config : String) (imagePath : Option String) (lines : Bool)
  /-- Start the container of a configuration, and wait until it ends. -/
  | run (config : String) (name : String) (id : Option TaskId) (describe : Bool)
  /-- Show what is known of a machine; wait so many seconds for it. -/
  | describe (machine : String) (timeout : Option Nat) (json : Bool)
  /-- Show what is known of an image. -/
  | image (name : String) (json : Bool)
  /-- Fetch an image. -/
  | pull (request : PullRequest)
deriving DecidableEq, Repr, Inhabited

/-- A command, and the path of the settings. -/
structure Invocation where
  settings : Option String
  command : Command
deriving DecidableEq, Repr, Inhabited

namespace Command

/-- The option for settings. -/
def settingsChoice : Choice := ⟨"config", some .path⟩

/-- The name under which a task runs that is given none. -/
def defaultTaskName : String := "nspawn"

/-- What stands before a command. -/
def topForm : Form where
  choices := [settingsChoice]
  commands := ["check", "render", "run", "describe", "image", "pull", "help"]
  hasVersion := true

/-- What stands behind a command. -/
def form (name : String) : Form :=
  match name with
  | "check" => { choices := [settingsChoice, ⟨"json", none⟩] }
  | "render" =>
    { choices := [⟨"image-path", some .path⟩, ⟨"lines", none⟩], operands := [.path] }
  | "run" =>
    { choices := [⟨"name", some .text⟩, ⟨"id", some .text⟩, ⟨"describe", none⟩]
      operands := [.path] }
  | "describe" =>
    { choices := [settingsChoice, ⟨"timeout", some .word⟩, ⟨"json", none⟩], operands := [.text] }
  | "image" => { choices := [settingsChoice, ⟨"json", none⟩], operands := [.text] }
  | "pull" =>
    { choices := [settingsChoice, ⟨"type", some .imageKind⟩, ⟨"verify", some .verifyMode⟩,
        ⟨"force", none⟩]
      operands := [.text, .text] }
  | _ => {}

/-- The value of an option, read; what cannot be read has been refused before. -/
def valueOr {α : Type} (g : Given) (name : String) (read : String → Option α) (otherwise : α) : α :=
  ((g.value? name).bind read).getD otherwise

/-- The command with a name, from what stands behind it. -/
def ofGiven (name : String) (g : Given) : Command :=
  match name with
  | "render" => .render (g.operand 0) (g.value? "image-path") (g.has "lines")
  | "run" =>
    .run (g.operand 0) ((g.value? "name").getD defaultTaskName) (g.value? "id") (g.has "describe")
  | "describe" =>
    .describe (g.operand 0) ((g.value? "timeout").bind readWord?) (g.has "json")
  | "image" => .image (g.operand 0) (g.has "json")
  | "pull" =>
    .pull {
      url := g.operand 0
      name := g.operand 1
      kind := valueOr g "type" (fun v => (ImageKind.ofName v).toOption) .tar
      verify := valueOr g "verify" (fun v => (VerifyMode.ofName v).toOption) .no
      force := g.has "force" }
  | _ => .check (g.has "json")

/-- The configuration file of a command, if it has one. -/
def configFile? : Command → Option String
  | .render config _ _ => some config
  | .run config _ _ _ => some config
  | _ => none

end Command

namespace Invocation

/-- What the words behind `help` come to: they have to name a command. -/
def helpRefusal (words : List String) : Refusal :=
  match words with
  | [] => .helpWanted
  | [name] => if Command.topForm.commands.contains name then .helpWanted else .unknownCommand
  | _ => .unknownCommand

/-- What has been given in a form at its end. What the environment names for settings is looked at
where the form has an option for them and it was not given. -/
def finish (form : Form) (environment : Option String) (r : Reader) : Except Refusal Given := do
  let r ← r.settle
  match environment with
  | some path =>
    if form.choices.contains Command.settingsChoice && !r.given.has Command.settingsChoice.name then
      ValueKind.path.check path
  | none => pure ()
  pure r.given

/-- The words behind a command. -/
def readBehind (environment : Option String) (name : String) (words : List String) :
    Except Refusal Given := do
  let form := Command.form name
  let (r, _) ← form.read {} words
  let given ← finish form environment r
  if given.operands.length < form.operands.length then .error .noOperand
  pure given

/-- A command line that has no command. -/
def withoutCommand (environment : Option String) (given : Given) : Refusal :=
  if given.options.isEmpty && environment.isNone then .nothing else .noCommand

/-- The words of a command line. `environment` is what the environment names for settings. -/
def read (environment : Option String) (words : List String) : Except Refusal Invocation := do
  let top := Command.topForm
  let (r, command?) ← top.read {} words
  match command? with
  | none => do
    let given ← finish top environment r
    .error (withoutCommand environment given)
  | some ("help", words) => .error (helpRefusal words)
  | some (name, words) => do
    let behind ← readBehind environment name words
    let before ← finish top environment r
    let command := Command.ofGiven name behind
    let settings := Command.settingsChoice.name
    pure {
      command
      settings := command.configFile? <|> behind.value? settings <|> before.value? settings <|>
        environment }

end Invocation

end Capsule
