import Capsule.Record

/-!
# Settings of the supervisor

The few things that are the same for all containers of one supervisor.
-/

namespace Capsule

/-- Settings that hold for all containers. -/
structure Settings where
  /-- How long to wait for a machine to register, in seconds. -/
  describeTimeout : Nat := 30
  /-- Whether images may be pulled before a launch. -/
  allowDownload : Bool := true
  /-- The program that runs containers. -/
  binary : String := "systemd-nspawn"
deriving DecidableEq, Repr, Inhabited

namespace Settings

/-- The table of the settings' fields. -/
def record : Record Settings where
  title := "struct DriverConfig"
  default := {}
  fields := [
    .of "describe_timeout_secs" .word
      ⟨(·.describeTimeout), fun v s => { s with describeTimeout := v }⟩,
    .of "allow_image_download" .bool ⟨(·.allowDownload), fun v s => { s with allowDownload := v }⟩,
    .of "nspawn_binary" .text ⟨(·.binary), fun v s => { s with binary := v }⟩]

/-- The settings that a JSON text describes. -/
def ofJson (text : List Char) : Decoded Settings := record.ofJson text

/-- The settings that a YAML text describes. -/
def ofYaml? (text : List Char) : Option Settings := record.ofYaml? text

end Settings

end Capsule
