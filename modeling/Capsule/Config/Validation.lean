import Capsule.Pull

/-!
# The rules of configurations

`Config.checks` lists what a configuration must satisfy, in the order in which it is looked at, and
`Config.validate` reports the first rule that is broken. A check is a condition and the violation to
report where it fails, so the list can be read as the definition of a valid configuration, and
`Config.IsValid` says just that.

The root of the host is guarded by its own rule: a container may run from it only if nothing that it
writes stays.
-/

namespace Capsule

/-- A condition on a configuration, and what to report where it fails. -/
structure Check where
  holds : Bool
  violation : Violation

namespace Check

/-- The value must be left out or be one of a list. -/
def oneOf (rule : Rule) (allowed : List String) (value : String) : Check :=
  ⟨value.isEmpty || allowed.contains value, ⟨rule, value⟩⟩

/-- Two settings exclude each other. -/
def notBoth (rule : Rule) (a b : Bool) (value : String) : Check :=
  ⟨!(a && b), ⟨rule, value⟩⟩

end Check

namespace Config

/-- The modes in which a container's file system forgets what is written. -/
def volatileModes : List String := ["yes", "state", "overlay", "no"]

def consoleModes : List String := ["interactive", "read-only", "passive", "pipe"]

def resolvConfModes : List String :=
  ["copy-host", "copy-static", "bind-host", "bind-static", "delete", "auto"]

/-- The root directory of the host. -/
def hostRoot : String := "/"

/-- Whether what the container writes is kept from the image. -/
def isDiscarding (c : Config) : Bool :=
  c.ephemeral || c.volatile == "yes" || c.volatile == "state"

/-- The parts of a text between colons. -/
def colonParts (s : String) : List String := (s.toList.splitOn ':').map String.ofList

/-- The kinds of image that a configuration may ask for. -/
def downloadTypes : List String := ["raw", "tar"]

/-- The ways of checking that a configuration may ask for. -/
def verifyModes : List String := ["no", "checksum", "signature"]

/-- What is asked of a download. -/
def downloadChecks (d : Download) : List Check :=
  [⟨downloadTypes.contains d.kind, ⟨.downloadKind, d.kind⟩⟩,
   ⟨verifyModes.contains d.verify, ⟨.downloadVerify, d.verify⟩⟩]

/-- What is asked of a configuration, in the order in which it is looked at. -/
def checks (c : Config) : List Check :=
  [.oneOf .volatileMode volatileModes c.volatile,
   .oneOf .consoleMode consoleModes c.console,
   .oneOf .resolvConfMode resolvConfModes c.resolvConf,
   .notBoth .bootOrProcessTwo c.boot c.processTwo "true",
   .notBoth .volatileOrUserNamespacing (!c.volatile.isEmpty) c.userNamespacing c.volatile,
   .notBoth .readOnlyOrUserNamespacing c.readOnly c.userNamespacing "true",
   ⟨c.workingDirectory.isEmpty || Path.isAbsolute c.workingDirectory,
    ⟨.absoluteWorkingDirectory, c.workingDirectory⟩⟩,
   ⟨c.pivotRoot.isEmpty || (colonParts c.pivotRoot).all Path.isAbsolute,
    ⟨.absolutePivotRoot, c.pivotRoot⟩⟩,
   ⟨c.image != hostRoot || c.isDiscarding, ⟨.protectedHostRoot, c.image⟩⟩]
  ++ (c.download.map downloadChecks).getD []

/-- The first rule that is broken, if one is. -/
def violation? (c : Config) : Option Violation :=
  (c.checks.find? fun k => !k.holds).map (·.violation)

/-- Reports the first rule that is broken. -/
def validate (c : Config) : Except Error Unit :=
  match c.violation? with
  | some v => .error (.invalid v)
  | none => .ok ()

/-- No rule is broken. -/
def IsValid (c : Config) : Prop := ∀ k ∈ c.checks, k.holds

/-- Nothing is reported of a valid configuration, and of no other. -/
theorem validate_eq_ok_iff {c : Config} : c.validate = .ok () ↔ c.IsValid := by
  rw [validate, violation?, IsValid]
  cases h : c.checks.find? fun k => !k.holds with
  | none => simpa [List.find?_eq_none] using h
  | some k =>
    have hk := List.find?_some h
    simp only [Option.map_some, reduceCtorEq, false_iff]
    intro hall
    simp [hall k (List.mem_of_find?_eq_some h)] at hk

end Config

end Capsule
