import Capsule.Proofs.Config.Reading
import Capsule.Proofs.Preparation.Ending
import Capsule.Proofs.Utf8

/-!
# The root of the host

A container that runs from the root of the host would write to the host itself. A rule keeps a
configuration from naming that root, unless nothing that the container writes stays. The rule is
about the text of a configuration's image and goes before the image is looked for: what it says of
the path that is then used is `Config.hostRoot_guarded`.

The rule does not look at paths. A path that is given apart from the configuration, or that the bus
reports for an image's name, is not compared with anything: `Config.hostRoot_unguarded`.

## Main definitions

* `Path.DenotesRoot`: the texts that lead to the root without any look at the files

## Main results

* `Config.hostRoot_guarded`: where the rule reaches
* `Config.hostRoot_unguarded`: where it does not
-/

namespace Capsule

namespace Path

/-- Only slashes, `.` and `..`, from the root. -/
def DenotesRoot (path : String) : Prop :=
  isAbsolute path = true ∧ ∀ name ∈ names path, name = "" ∨ name = "." ∨ name = ".."

instance (path : String) : Decidable (DenotesRoot path) := inferInstanceAs (Decidable (_ ∧ _))

/-- A path in a directory is the root only if it says so itself. -/
theorem eq_of_join_eq_root {base path : String} (hpath : path ≠ "") (h : join base path = "/") :
    path = "/" := by
  rw [join] at h
  split at h
  · exact h
  · rename_i hrelative
    simp only [Bool.or_eq_true, not_or, Bool.not_eq_true, String.isEmpty_eq_false_iff] at hrelative
    have hbase : 0 < base.length := by
      simpa [Nat.pos_iff_ne_zero] using hrelative.2
    have hlength : 0 < path.length := by
      simpa [Nat.pos_iff_ne_zero] using hpath
    have hroot : ("/" : String).length = 1 := rfl
    split at h
    · have := congrArg String.length h
      rw [String.length_append] at this
      omega
    · have := congrArg String.length h
      rw [String.length_append, String.length_append] at this
      omega

end Path

variable {σ : Type}

namespace Config

variable {c : Config} {host : Host} {bus : Bus σ} {path : String}

/-- The rule, as it is written. -/
theorem isDiscarding_of_validate (h : c.validate = .ok ()) (himage : c.image = hostRoot) :
    c.isDiscarding = true := by
  have hrule := validate_eq_ok_iff.mp h
    ⟨c.image != hostRoot || c.isDiscarding, ⟨.protectedHostRoot, c.image⟩⟩ (by simp [checks])
  simpa [himage] using hrule

/-- On disk the root is found under its own name only. -/
theorem isDiscarding_of_found (h : c.validate = .ok ()) (himage : c.image ≠ "")
    (hfound : Image.Found host bus c.image path) (hpath : path = hostRoot) :
    c.isDiscarding = true ∨ Image.IsReported host bus c.image path := by
  cases hfound with
  | onDisk there =>
    obtain ⟨base, -, -, hjoin⟩ := Image.onDisk_eq_some_iff.mp there
    exact .inl (isDiscarding_of_validate h (Path.eq_of_join_eq_root himage (hjoin.trans hpath)))
  | reported there => exact .inr there

theorem getElem?_one_of_argumentsAt {arguments : List String}
    (h : c.argumentsAt host path = .ok arguments) : arguments[1]? = some path := by
  obtain ⟨-, entry, -, rfl⟩ := argumentsAt_eq_ok_iff.mp h
  rfl

end Config

namespace World

variable {w : World σ} {config : Config} {path : String} {arguments : List String}

theorem argumentsAt_eq_ok_iff :
    w.argumentsAt config path = .ok arguments ↔
      config.validate = .ok () ∧ config.argumentsAt w.host path = .ok arguments := by
  rw [World.argumentsAt]
  cases config.validate with
  | error e => simp [bind, Except.bind]
  | ok u => simp [bind, Except.bind]

/-- The session that shows an answer. -/
def shown (lines : Bool) (s : σ) : Answer (List String) → Session σ
  | .never => { conclusion := .unfinished, source := s }
  | .after _ (.error e) => failure s e
  | .after _ (.ok arguments) => { lines := argumentLines lines arguments, source := s }

theorem exists_of_shown_succeeded {lines : Bool} {s : σ} {answer : Answer (List String)}
    (h : (shown lines s answer).conclusion = .succeeded) :
    ∃ delay arguments, answer = .after delay (.ok arguments) ∧
      (shown lines s answer).lines = argumentLines lines arguments := by
  cases answer with
  | never => cases h
  | after delay outcome =>
    cases outcome with
    | error e => cases h
    | ok arguments => exact ⟨delay, arguments, rfl, rfl⟩

theorem render_given {file : String} (hload : Config.load w.host file = .ok config)
    (path : String) (lines : Bool) (s : σ) :
    w.render file (some path) lines s = shown lines s (.after 0 (w.argumentsAt config path)) := by
  rw [render, hload]
  simp only
  cases w.argumentsAt config path <;> rfl

theorem render_found {file : String} (hload : Config.load w.host file = .ok config)
    (lines : Bool) (s : σ) :
    w.render file none lines s = shown lines (w.arguments config s).2 (w.arguments config s).1 := by
  rw [render, hload]
  simp only
  cases (w.arguments config s).1 with
  | never => rfl
  | after delay outcome => cases outcome <;> rfl

/-- What is rendered with success: a configuration that was loaded, at the path that was given or at
the one that was found. -/
theorem rendered_of_succeeded {file : String} {given : Option String} {lines : Bool} {s : σ}
    (h : (w.render file given lines s).conclusion = .succeeded) :
    ∃ config arguments path, Config.load w.host file = .ok config ∧
      (w.render file given lines s).lines = argumentLines lines arguments ∧
      config.validate = .ok () ∧ config.argumentsAt w.host path = .ok arguments ∧
      (∀ p, given = some p → path = p) ∧
      (given = none → Image.Found w.host w.bus config.image path) := by
  cases hload : Config.load w.host file with
  | error e =>
    rw [render, hload] at h
    cases h
  | ok config =>
    cases given with
    | some path =>
      rw [render_given hload] at h ⊢
      obtain ⟨_, arguments, hanswer, hlines⟩ := exists_of_shown_succeeded h
      obtain ⟨hvalid, harguments⟩ := argumentsAt_eq_ok_iff.mp (Answer.after.inj hanswer).2
      exact ⟨config, arguments, path, rfl, hlines, hvalid, harguments,
        fun p hp => Option.some.inj hp, nofun⟩
    | none =>
      rw [render_found hload] at h ⊢
      obtain ⟨_, arguments, hanswer, hlines⟩ := exists_of_shown_succeeded h
      obtain ⟨hvalid, path, hfound, harguments⟩ := found_of_arguments (Prod.ext hanswer rfl)
      exact ⟨config, arguments, path, rfl, hlines, hvalid, harguments, nofun, fun _ => hfound⟩

end World

namespace Config

/-- **Where the rule reaches.** Arguments are prepared or rendered for a configuration that names
the root of the host only if what the container writes does not stay. The same holds if the path
in the arguments is that root, where the path was not given apart from the configuration and was not
reported by the bus. -/
theorem hostRoot_guarded :
    (∀ (bus : Bus σ) settings host config id name now steps s log c arguments time s',
      Preparation.run bus settings host config id name now steps s =
          (log, .ready c arguments, time, s') →
        ∃ path, arguments[1]? = some path ∧
          (config.image = hostRoot → config.isDiscarding = true) ∧
          (path = hostRoot →
            config.isDiscarding = true ∨ Image.IsReported host bus config.image path)) ∧
    ∀ (w : World σ) file given lines s, (w.render file given lines s).conclusion = .succeeded →
      ∃ config arguments path, Config.load w.host file = .ok config ∧
        (w.render file given lines s).lines = World.argumentLines lines arguments ∧
        config.argumentsAt w.host path = .ok arguments ∧ arguments[1]? = some path ∧
        (∀ p, given = some p → path = p) ∧
        (config.image = hostRoot → config.isDiscarding = true) ∧
        (given = none → path = hostRoot →
          config.isDiscarding = true ∨ Image.IsReported w.host w.bus config.image path) := by
  constructor
  · intro bus settings host config id name now steps s log c arguments time s' h
    obtain ⟨hvalid, path, hfound, -, harguments⟩ := Preparation.ready_of_run h
    have himage : config.image ≠ "" := by
      have := (argumentsAt_eq_ok_iff.mp harguments).1
      rwa [Preparation.image_withMachine] at this
    exact ⟨path, getElem?_one_of_argumentsAt harguments, isDiscarding_of_validate hvalid,
      isDiscarding_of_found hvalid himage hfound⟩
  · intro w file given lines s h
    obtain ⟨config, arguments, path, hload, hlines, hvalid, harguments, hgiven, hfound⟩ :=
      World.rendered_of_succeeded h
    have himage : config.image ≠ "" := (argumentsAt_eq_ok_iff.mp harguments).1
    exact ⟨config, arguments, path, hload, hlines, harguments,
      getElem?_one_of_argumentsAt harguments, hgiven, isDiscarding_of_validate hvalid,
      fun hnone => isDiscarding_of_found hvalid himage (hfound hnone)⟩

end Config

/-! ### Where the rule does not reach -/

/-- The properties of an image at a path. -/
def Image.bagAt (path : String) : PropertyBag :=
  .ofList [("CreationTimestamp", .uint64 0), ("Limit", .uint64 0), ("LimitExclusive", .uint64 0),
    ("ModificationTimestamp", .uint64 0), ("Name", .text "host"), ("Path", .text path),
    ("ReadOnly", .bool false), ("Type", .text "directory"), ("Usage", .uint64 0),
    ("UsageExclusive", .uint64 0)]

/-- A bus that reports every image at one path, and answers nothing else. -/
def Bus.reporting (path : String) : Bus Unit where
  describeMachine _ s := (.never, s)
  describeImage _ s := (.after 0 (.ok (Image.bagAt path)), s)
  listTransfers s := (.never, s)
  pull _ s := (.never, s)

/-- A host with one file. -/
def Host.withFile (content : List UInt8) : Host :=
  ⟨.insert .empty ["c.json"] (.file content false), [], .ok "/"⟩

theorem Host.entry_withFile (content : List UInt8) :
    (withFile content).files.entry (withFile content).directory "c.json" =
      .ok (.file content false) := by
  have hplace : (withFile content).files.place (withFile content).directory "c.json" =
      .ok ["c.json"] := by
    cbv
  rw [Files.entry, hplace]
  simp [bind, Except.bind, withFile, Files.isDirectory, Files.insert]

/-- A world without programs, with one configuration. -/
def World.withConfig (text : String) (bus : Bus Unit) : World Unit where
  host := .withFile (Utf8.encode text)
  search := ⟨[]⟩
  architecture := ""
  bus := bus
  start program _ := .error (.notStarted program .notFound)
  wait _ _ := .ok (.exited 0)
  freshId := ""
  now := default
  patience := 0

theorem World.load_withConfig {text : String} (bus : Bus Unit) {c : Config}
    (hc : Config.ofJson text.toList = .ok c) :
    Config.load (withConfig text bus).host "c.json" = .ok c := by
  have hread : (withConfig text bus).host.files.read (withConfig text bus).host.directory
      "c.json" = .ok text.toList :=
    Files.read_of_entry (Host.entry_withFile _)
  have hformat : Config.formatOf "c.json" = .json := by cbv
  have hjson : Config.record.ofJson text.toList = .ok c := hc
  rw [Config.load, Record.load, hread]
  simp only [hformat, Record.ofText, hjson]
  rfl

theorem Image.ofAnswer_bagAt (reference path : String) :
    ofAnswer reference (.ok (bagAt path)) = .ok path := by
  cbv

namespace Config

/-- A container that forgets what it writes is prepared and rendered on the root of the host. -/
theorem hostRoot_guarded_ephemeral :
    let w := World.withConfig "\x7b\"image\": \"/\", \"ephemeral\": true\x7d"
      (Bus.reporting "/srv")
    let config : Config := { image := "/", ephemeral := true }
    let named := Preparation.withMachine config "id" "n"
    (Preparation.run w.bus {} w.host config "id" "n" 0 1 () =
        ([(0, {})], .ready { named with imagePath := some "/" }
          ["-D", "/", "--ephemeral", "--machine", "n-id"], 0, ()) ∧
      config.isDiscarding = true) ∧
    ((w.render "c.json" none true ()).conclusion = .succeeded ∧
      ∃ c, Config.load w.host "c.json" = .ok c ∧
        (c.image = hostRoot → c.isDiscarding = true)) := by
  intro w config named
  have hload : Config.load w.host "c.json" = .ok config :=
    World.load_withConfig _ (by cbv)
  have hdisk : Image.onDisk w.host config.image = .ok (some "/") :=
    Image.onDisk_eq_some_iff.mpr ⟨"/", rfl, by cbv, by decide⟩
  have hrun : Preparation.run w.bus {} w.host config "id" "n" 0 1 () =
      ([(0, {})], .ready { named with imagePath := some "/" }
        ["-D", "/", "--ephemeral", "--machine", "n-id"], 0, ()) :=
    Preparation.run_of_onDisk (by rfl) (by rfl) hdisk (by cbv) w.bus 0
  have hrender : (w.render "c.json" none true ()).conclusion = .succeeded := by
    have hplain : config.argumentsAt w.host "/" = .ok ["-D", "/", "--ephemeral"] := by cbv
    rw [World.render_found hload, World.arguments_of_onDisk (by rfl) hdisk hplain]
    rfl
  obtain ⟨_, -, hprepared, -⟩ := hostRoot_guarded.1 _ _ _ _ _ _ _ _ _ _ _ _ _ _ hrun
  obtain ⟨c, _, _, hc, -, -, -, -, hrendered, -⟩ :=
    hostRoot_guarded.2 w "c.json" none true () hrender
  exact ⟨⟨hrun, hprepared rfl⟩, hrender, c, hc, hrendered⟩

/-- **Where the rule does not reach.** No rule is broken, and nothing is discarded; and still a
container would run from the root of the host, under another name, where the bus says or where the
caller says. -/
theorem hostRoot_unguarded :
    let host : Host := ⟨.empty, [], .ok "/"⟩
    let prepared (c : Config) := (Preparation.run (Bus.reporting "/") {} host c "id" "n" 0 2 ()).2.1
    let written : Config := { image := "/.", machine := "m" }
    let known : Config := { image := "host", machine := "m" }
    let w := World.withConfig "\x7b\"image\": \"debian\"\x7d" (Bus.reporting "/")
    (prepared written = .ready { written with imagePath := some "/." }
        ["-D", "/.", "--machine", "m"] ∧
      Path.DenotesRoot "/." ∧ written.isDiscarding = false) ∧
    (prepared known = .ready { known with imagePath := some "/" } ["-D", "/", "--machine", "m"] ∧
      Path.DenotesRoot "/" ∧ known.isDiscarding = false) ∧
    Config.load w.host "c.json" = .ok { image := "debian" } ∧
      w.render "c.json" (some "/") true () = { lines := ["-D", "/"], source := () } ∧
      isDiscarding { image := "debian" } = false := by
  intro host prepared written known w
  have hwritten : Image.onDisk host written.image = .ok (some "/.") :=
    Image.onDisk_eq_some_iff.mpr ⟨"/", rfl, by cbv, by decide⟩
  have hknown : Image.onDisk host known.image = .ok none := by
    have hnothing : host.files.leads host.directory "/host" = false := by cbv
    have hjoin : Path.join "/" known.image = "/host" := by decide
    rw [Image.onDisk_of_ok rfl, hjoin, hnothing]
    rfl
  have hload : Config.load w.host "c.json" = .ok { image := "debian" } :=
    World.load_withConfig _ (by cbv)
  refine ⟨⟨?_, by decide, by decide⟩, ⟨?_, by decide, by decide⟩, hload, ?_, by decide⟩
  · simp only [prepared]
    rw [Preparation.run_of_onDisk (by rfl) (by rfl) hwritten (by cbv)]
    rfl
  · simp only [prepared]
    rw [Preparation.run_of_reported (by rfl) (by rfl) hknown rfl
      (Image.ofAnswer_bagAt known.image "/") (by cbv)]
    rfl
  · rw [World.render_given hload]
    cbv

end Config

end Capsule
