import Capsule.Config
import Capsule.Settings
import Capsule.Error

/-!
# Reading configuration files

The name of a file decides how it is read: a configuration is YAML in a file that ends in `.yaml` or
`.yml`, and JSON in any other; settings are JSON in a file that ends in `.json`, and YAML in any
other.
-/

namespace Capsule

/-- The formats of documents. -/
inductive Format
  | json
  | yaml
deriving DecidableEq, Repr, Inhabited

/-- A configuration or settings, from a text. -/
def Record.ofText {σ : Type} (r : Record σ) (format : Format) (text : List Char) :
    Except Error σ :=
  match format with
  | .json => (r.ofJson text).mapError .json
  | .yaml =>
    match r.ofYaml? text with
    | some s => .ok s
    | none => .error .yaml

/-- A record from a file, whose name decides on the format. -/
def Record.load {σ : Type} (r : Record σ) (format : String → Format) (host : Host)
    (path : String) : Except Error σ :=
  match host.files.read host.directory path with
  | .error problem => .error (.file path problem)
  | .ok text => r.ofText (format path) text

namespace Config

/-- The format that a file of a configuration is in. -/
def formatOf (path : String) : Format :=
  match Path.extension? path with
  | some "yaml" => .yaml
  | some "yml" => .yaml
  | _ => .json

def load (host : Host) (path : String) : Except Error Config := record.load formatOf host path

end Config

namespace Settings

/-- The format that a file of settings is in. -/
def formatOf (path : String) : Format :=
  match Path.extension? path with
  | some "json" => .json
  | _ => .yaml

def load (host : Host) (path : String) : Except Error Settings := record.load formatOf host path

end Settings

end Capsule
