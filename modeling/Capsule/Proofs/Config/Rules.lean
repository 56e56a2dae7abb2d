import Capsule.Config.Validation

/-!
# The first rule that is broken

A configuration is held to eleven rules, and the first one that it breaks is reported. This file
says what it is to break a rule, one rule after the other and without a look at how it is checked,
and proves that the checks come to just that: `Config.validate_reports_first`.

## The order

Several rules speak of the same settings, so a configuration often breaks more than one, and what is
reported depends on the order. `Config.rules` is that order, and a rule is reported if it is broken
and none before it is. The two rules of a download have their place in it whether or not there is a
download: without one they are not broken.

## What the verdict depends on

`Config.judged` is what the rules look at. Everything else may be anything, and even of a download
two settings are left out.

## Main definitions

* `Config.rules`: the rules in their order
* `Config.Breaks`: a configuration breaks a rule
* `Config.charge`: the setting and the value that a broken rule is charged to

## Main results

* `Config.violation?_eq`: the violation that is found is that of the first broken rule
* `Config.validate_reports_first`
-/

namespace Capsule

namespace Config

/-- The rules of a configuration, in the order in which they are looked at. -/
def rules : List Rule :=
  [.volatileMode, .consoleMode, .resolvConfMode, .bootOrProcessTwo, .volatileOrUserNamespacing,
   .readOnlyOrUserNamespacing, .absoluteWorkingDirectory, .absolutePivotRoot, .protectedHostRoot,
   .downloadKind, .downloadVerify]

/-- A configuration breaks a rule. -/
def Breaks (c : Config) : Rule → Prop
  | .volatileMode => c.volatile ≠ "" ∧ c.volatile ∉ ["yes", "state", "overlay", "no"]
  | .consoleMode =>
    c.console ≠ "" ∧ c.console ∉ ["interactive", "read-only", "passive", "pipe"]
  | .resolvConfMode =>
    c.resolvConf ≠ "" ∧ c.resolvConf ∉
      ["copy-host", "copy-static", "bind-host", "bind-static", "delete", "auto"]
  | .bootOrProcessTwo => c.boot = true ∧ c.processTwo = true
  | .volatileOrUserNamespacing => c.volatile ≠ "" ∧ c.userNamespacing = true
  | .readOnlyOrUserNamespacing => c.readOnly = true ∧ c.userNamespacing = true
  | .absoluteWorkingDirectory =>
    c.workingDirectory ≠ "" ∧ c.workingDirectory.toList.head? ≠ some '/'
  | .absolutePivotRoot =>
    c.pivotRoot ≠ "" ∧ ∃ part ∈ c.pivotRoot.toList.splitOn ':', part.head? ≠ some '/'
  | .protectedHostRoot =>
    c.image = "/" ∧ ¬ (c.ephemeral = true ∨ c.volatile = "yes" ∨ c.volatile = "state")
  | .downloadKind => ∃ d ∈ c.download, d.kind ∉ ["raw", "tar"]
  | .downloadVerify => ∃ d ∈ c.download, d.verify ∉ ["no", "checksum", "signature"]
  -- Held against a request, not against a configuration.
  | .imageKind | .verifyMode => False

instance (c : Config) : DecidablePred c.Breaks
  | .volatileMode | .consoleMode | .resolvConfMode => inferInstanceAs (Decidable (_ ∧ _))
  | .bootOrProcessTwo | .volatileOrUserNamespacing | .readOnlyOrUserNamespacing =>
    inferInstanceAs (Decidable (_ ∧ _))
  | .absoluteWorkingDirectory | .absolutePivotRoot | .protectedHostRoot =>
    inferInstanceAs (Decidable (_ ∧ _))
  | .downloadKind | .downloadVerify => inferInstanceAs (Decidable (∃ d ∈ c.download, _))
  | .imageKind | .verifyMode => inferInstanceAs (Decidable False)

/-- The setting that a broken rule is charged to, and the value to blame. -/
def charge (c : Config) : Rule → String × String
  | .volatileMode => ("volatile", c.volatile)
  | .consoleMode => ("console", c.console)
  | .resolvConfMode => ("resolv_conf", c.resolvConf)
  | .bootOrProcessTwo => ("boot", "true")
  | .volatileOrUserNamespacing => ("volatile", c.volatile)
  | .readOnlyOrUserNamespacing => ("read_only", "true")
  | .absoluteWorkingDirectory => ("working_directory", c.workingDirectory)
  | .absolutePivotRoot => ("pivot_root", c.pivotRoot)
  | .protectedHostRoot => ("image", c.image)
  | .downloadKind | .imageKind => ("image_download.type", (c.download.map (·.kind)).getD "")
  | .downloadVerify | .verifyMode =>
    ("image_download.verify", (c.download.map (·.verify)).getD "")

/-- What the rules look at. -/
def judged (c : Config) : Config where
  boot := c.boot
  ephemeral := c.ephemeral
  processTwo := c.processTwo
  readOnly := c.readOnly
  userNamespacing := c.userNamespacing
  console := c.console
  image := c.image
  download := c.download.map fun d => { kind := d.kind, verify := d.verify }
  pivotRoot := c.pivotRoot
  resolvConf := c.resolvConf
  volatile := c.volatile
  workingDirectory := c.workingDirectory

variable {c c' : Config}

/-! ### One check for each rule -/

/-- The violation of a rule that is broken. -/
def violationOf (c : Config) (r : Rule) : Violation := ⟨r, (c.charge r).2⟩

/-- The check of a rule. -/
def checkOf (c : Config) (r : Rule) : Check := ⟨!decide (c.Breaks r), c.violationOf r⟩

theorem field_eq_charge (c : Config) (r : Rule) : r.field = (c.charge r).1 := by
  cases r <;> rfl

/-- A check that fails where a rule is broken is the check of that rule. -/
theorem checkOf_eq {r : Rule} {holds : Bool} {value : String} (hvalue : (c.charge r).2 = value)
    (hbreaks : c.Breaks r ↔ holds = false) : (⟨holds, ⟨r, value⟩⟩ : Check) = c.checkOf r := by
  rw [checkOf, violationOf, hvalue]
  congr 1
  cases holds <;> simp [hbreaks]

theorem oneOf_eq {r : Rule} {allowed : List String} {value : String}
    (hvalue : (c.charge r).2 = value) (hbreaks : c.Breaks r ↔ value ≠ "" ∧ value ∉ allowed) :
    Check.oneOf r allowed value = c.checkOf r :=
  checkOf_eq hvalue (by simp [hbreaks])

theorem notBoth_eq {r : Rule} {a b : Bool} {value : String} (hvalue : (c.charge r).2 = value)
    (hbreaks : c.Breaks r ↔ a = true ∧ b = true) : Check.notBoth r a b value = c.checkOf r :=
  checkOf_eq hvalue (by simp [hbreaks])

theorem workingDirectory_eq :
    (⟨c.workingDirectory.isEmpty || Path.isAbsolute c.workingDirectory,
      ⟨.absoluteWorkingDirectory, c.workingDirectory⟩⟩ : Check) =
      c.checkOf .absoluteWorkingDirectory :=
  checkOf_eq rfl (by simp [Breaks, Path.isAbsolute])

theorem pivotRoot_eq : (⟨c.pivotRoot.isEmpty || (colonParts c.pivotRoot).all Path.isAbsolute,
    ⟨.absolutePivotRoot, c.pivotRoot⟩⟩ : Check) = c.checkOf .absolutePivotRoot :=
  checkOf_eq rfl (by simp [Breaks, colonParts, Path.isAbsolute])

theorem hostRoot_eq : (⟨c.image != hostRoot || c.isDiscarding,
    ⟨.protectedHostRoot, c.image⟩⟩ : Check) = c.checkOf .protectedHostRoot :=
  checkOf_eq rfl (by simp [Breaks, isDiscarding, hostRoot, and_assoc])

theorem downloadChecks_eq {d : Download} (h : c.download = some d) :
    downloadChecks d = [.downloadKind, .downloadVerify].map c.checkOf := by
  have hkind : (⟨downloadTypes.contains d.kind, ⟨.downloadKind, d.kind⟩⟩ : Check) =
      c.checkOf .downloadKind :=
    checkOf_eq (by simp [charge, h]) (by simp [Breaks, h, downloadTypes])
  have hverify : (⟨verifyModes.contains d.verify, ⟨.downloadVerify, d.verify⟩⟩ : Check) =
      c.checkOf .downloadVerify :=
    checkOf_eq (by simp [charge, h]) (by simp [Breaks, h, verifyModes])
  rw [downloadChecks, hkind, hverify]
  rfl

/-- The checks that are made are those of the rules, in their order. Those of a download are made
where there is one. -/
theorem checks_eq (c : Config) :
    c.checks = (rules.take (if c.download.isSome then 11 else 9)).map c.checkOf := by
  have hvolatile : Check.oneOf .volatileMode volatileModes c.volatile = c.checkOf .volatileMode :=
    oneOf_eq rfl .rfl
  have hconsole : Check.oneOf .consoleMode consoleModes c.console = c.checkOf .consoleMode :=
    oneOf_eq rfl .rfl
  have hresolvConf : Check.oneOf .resolvConfMode resolvConfModes c.resolvConf =
      c.checkOf .resolvConfMode := oneOf_eq rfl .rfl
  have hboot : Check.notBoth .bootOrProcessTwo c.boot c.processTwo "true" =
      c.checkOf .bootOrProcessTwo := notBoth_eq rfl .rfl
  have hexclusive : Check.notBoth .volatileOrUserNamespacing (!c.volatile.isEmpty)
      c.userNamespacing c.volatile = c.checkOf .volatileOrUserNamespacing :=
    notBoth_eq rfl (by simp [Breaks])
  have hreadOnly : Check.notBoth .readOnlyOrUserNamespacing c.readOnly c.userNamespacing "true" =
      c.checkOf .readOnlyOrUserNamespacing := notBoth_eq rfl .rfl
  rw [checks, hvolatile, hconsole, hresolvConf, hboot, hexclusive, hreadOnly, workingDirectory_eq,
    pivotRoot_eq, hostRoot_eq]
  cases h : c.download with
  | none => rfl
  | some d =>
    rw [Option.map_some, Option.getD_some, downloadChecks_eq h]
    rfl

/-- Without a download its rules are not broken. -/
theorem find?_rules_take (c : Config) :
    (rules.take (if c.download.isSome then 11 else 9)).find? (fun r => decide (c.Breaks r)) =
      rules.find? fun r => decide (c.Breaks r) := by
  cases h : c.download with
  | some d => rfl
  | none =>
    have hnone : [Rule.downloadKind, .downloadVerify].find? (fun r => decide (c.Breaks r)) =
        none := by
      simp [Breaks, h]
    have hrules : rules = rules.take 9 ++ [.downloadKind, .downloadVerify] := rfl
    rw [hrules, List.find?_append, hnone, Option.or_none]
    rfl

/-- **The violation that is found is that of the first broken rule.** -/
theorem violation?_eq (c : Config) :
    c.violation? = (rules.find? fun r => decide (c.Breaks r)).map c.violationOf := by
  have hholds : (fun k : Check => !k.holds) ∘ c.checkOf = fun r => decide (c.Breaks r) := by
    funext r
    simp [checkOf]
  rw [violation?, checks_eq, List.find?_map, hholds, find?_rules_take, Option.map_map]
  rfl

/-- Rules look at nothing but what is judged. -/
theorem breaks_judged (c : Config) (r : Rule) : c.judged.Breaks r ↔ c.Breaks r := by
  cases r with
  | downloadKind | downloadVerify => cases h : c.download <;> simp [Breaks, judged, h]
  | _ => rfl

theorem charge_judged (c : Config) (r : Rule) : c.judged.charge r = c.charge r := by
  cases r with
  | downloadKind | downloadVerify | imageKind | verifyMode =>
    cases h : c.download <;> simp [charge, judged, h]
  | _ => rfl

theorem validate_judged (c : Config) : c.judged.validate = c.validate := by
  have hviolation : c.judged.violation? = c.violation? := by
    rw [violation?_eq, violation?_eq]
    simp only [breaks_judged]
    congr 1
    funext r
    rw [violationOf, violationOf, charge_judged]
  rw [validate, validate, hviolation]

/-- **The first rule that is broken is reported**, with the setting it is charged to and the value
to blame. A configuration that breaks none is valid, and no other is. Nothing but what is judged
matters for that. -/
theorem validate_reports_first (c : Config) :
    (c.validate = .ok () ↔ ∀ r ∈ rules, ¬ c.Breaks r) ∧
    (∀ e, c.validate = .error e ↔ ∃ before r behind, rules = before ++ r :: behind ∧
      (∀ r' ∈ before, ¬ c.Breaks r') ∧ c.Breaks r ∧
        ∃ v, e = .invalid v ∧ v.rule = r ∧ (v.rule.field, v.value) = c.charge r) ∧
    ∀ c' : Config, c'.judged = c.judged → c'.validate = c.validate := by
  have hviolation (r : Rule) (v : Violation) :
      v = c.violationOf r ↔ v.rule = r ∧ (v.rule.field, v.value) = c.charge r := by
    constructor
    · rintro rfl
      exact ⟨rfl, Prod.ext (field_eq_charge c r) rfl⟩
    · rintro ⟨rfl, hcharge⟩
      rw [violationOf, ← hcharge]
  refine ⟨?_, fun e => ?_, fun c' h => ?_⟩
  · rw [validate, violation?_eq]
    cases h : rules.find? fun r => decide (c.Breaks r) with
    | none => simpa using h
    | some r =>
      have hr : c.Breaks r := by simpa using List.find?_some h
      simp only [Option.map_some, reduceCtorEq, false_iff]
      exact fun hall => hall r (List.mem_of_find?_eq_some h) hr
  · have hfirst : c.validate = .error e ↔
        ∃ r, rules.find? (fun r => decide (c.Breaks r)) = some r ∧
          e = .invalid (c.violationOf r) := by
      rw [validate, violation?_eq]
      cases rules.find? fun r => decide (c.Breaks r) with
      | none => simp
      | some r => simp [eq_comm]
    rw [hfirst]
    constructor
    · rintro ⟨r, hr, rfl⟩
      obtain ⟨hbreaks, before, behind, hrules, hbefore⟩ := List.find?_eq_some_iff_append.mp hr
      refine ⟨before, r, behind, hrules, ?_, of_decide_eq_true hbreaks, _, rfl,
        (hviolation r _).mp rfl⟩
      simpa using hbefore
    · rintro ⟨before, r, behind, hrules, hbefore, hbreaks, v, rfl, hv⟩
      refine ⟨r, List.find?_eq_some_iff_append.mpr ⟨decide_eq_true hbreaks, before, behind, hrules,
        ?_⟩, congrArg _ ((hviolation r v).mpr hv)⟩
      simpa using hbefore
  · rw [← validate_judged c', h, validate_judged]

/-- Three rules are broken, and the second of them only through the value that breaks the first. -/
example :
    let c : Config := { volatile := "tmpfs", userNamespacing := true, image := "/" }
    rules.filter (fun r => decide (c.Breaks r)) =
        [.volatileMode, .volatileOrUserNamespacing, .protectedHostRoot] ∧
      c.validate = .error (.invalid ⟨.volatileMode, "tmpfs"⟩) :=
  ⟨by decide, rfl⟩

end Config

end Capsule
