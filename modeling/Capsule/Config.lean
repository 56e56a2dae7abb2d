import Capsule.Record

/-!
# Container configurations

What a container is to look like: twenty settings, and the path of the image once it has been
found. `Config.record` is the one table of the settings' names; both document formats and the JSON
writer go by it. The path is not part of a document: it is written by nobody and read by nobody.
-/

namespace Capsule

/-- Where to fetch an image that is to be pulled before the launch. -/
structure Download where
  url : String := ""
  kind : String := ""
  force : Bool := false
  verify : String := ""
deriving DecidableEq, Repr, Inhabited

/-- The configuration of a container. -/
structure Config where
  boot : Bool := false
  ephemeral : Bool := false
  processTwo : Bool := false
  readOnly : Bool := false
  userNamespacing : Bool := false
  command : List String := []
  console : String := ""
  image : String := ""
  download : Option Download := none
  machine : String := ""
  pivotRoot : String := ""
  resolvConf : String := ""
  user : String := ""
  volatile : String := ""
  workingDirectory : String := ""
  networkNamespace : String := ""
  bind : StringMap := .empty
  bindReadOnly : StringMap := .empty
  environment : StringMap := .empty
  properties : StringMap := .empty
  /-- The path of the image, once it has been found. -/
  imagePath : Option String := none
deriving DecidableEq, Repr, Inhabited

/-- The table of a download's fields. -/
def Download.record : Record Download where
  title := "struct ImageDownload"
  default := {}
  fields := [
    .of "url" .text ⟨(·.url), fun v d => { d with url := v }⟩,
    .of "type" .text ⟨(·.kind), fun v d => { d with kind := v }⟩,
    .of "force" .bool ⟨(·.force), fun v d => { d with force := v }⟩,
    .of "verify" .text ⟨(·.verify), fun v d => { d with verify := v }⟩]

namespace Config

/-- The table of a configuration's fields. -/
def record : Record Config where
  title := "struct ContainerConfig"
  default := {}
  fields := [
    .of "boot" .bool ⟨(·.boot), fun v c => { c with boot := v }⟩,
    .of "ephemeral" .bool ⟨(·.ephemeral), fun v c => { c with ephemeral := v }⟩,
    .of "process_two" .bool ⟨(·.processTwo), fun v c => { c with processTwo := v }⟩,
    .of "read_only" .bool ⟨(·.readOnly), fun v c => { c with readOnly := v }⟩,
    .of "user_namespacing" .bool
      ⟨(·.userNamespacing), fun v c => { c with userNamespacing := v }⟩,
    .of "command" .texts ⟨(·.command), fun v c => { c with command := v }⟩,
    .of "console" .text ⟨(·.console), fun v c => { c with console := v }⟩,
    .of "image" .text ⟨(·.image), fun v c => { c with image := v }⟩,
    .of "image_download" (.block Download.record)
      ⟨(·.download), fun v c => { c with download := v }⟩,
    .of "machine" .text ⟨(·.machine), fun v c => { c with machine := v }⟩,
    .of "pivot_root" .text ⟨(·.pivotRoot), fun v c => { c with pivotRoot := v }⟩,
    .of "resolv_conf" .text ⟨(·.resolvConf), fun v c => { c with resolvConf := v }⟩,
    .of "user" .text ⟨(·.user), fun v c => { c with user := v }⟩,
    .of "volatile" .text ⟨(·.volatile), fun v c => { c with volatile := v }⟩,
    .of "working_directory" .text
      ⟨(·.workingDirectory), fun v c => { c with workingDirectory := v }⟩,
    .of "network_namespace_path" .text
      ⟨(·.networkNamespace), fun v c => { c with networkNamespace := v }⟩,
    .of "bind" .stringMap ⟨(·.bind), fun v c => { c with bind := v }⟩,
    .of "bind_read_only" .stringMap ⟨(·.bindReadOnly), fun v c => { c with bindReadOnly := v }⟩,
    .of "environment" .stringMap ⟨(·.environment), fun v c => { c with environment := v }⟩,
    .of "properties" .stringMap ⟨(·.properties), fun v c => { c with properties := v }⟩]

/-- The configuration that a JSON text describes. -/
def ofJson (text : List Char) : Decoded Config := record.ofJson text

/-- The configuration that a YAML text describes. -/
def ofYaml? (text : List Char) : Option Config := record.ofYaml? text

/-- The configuration as a JSON object. -/
def toJson (c : Config) : Json := record.toJson c

end Config

end Capsule
