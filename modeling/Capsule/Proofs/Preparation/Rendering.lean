import Capsule.Proofs.Config.HostRoot

/-!
# Rendering and preparing

Arguments are put together in two places: for a launch, by the steps of a preparation, and to be
shown, by `World.arguments`. The two share nothing but the rules, the search for the image and
`Config.argumentsAt`, and they are given different configurations: a preparation puts in a name for
a machine that has none.

This file compares them where nothing is to be downloaded. Both then ask the same question at most
once, of the bus in the same state, so that an error of one is the error of the other; and the name
that is put in stands at one place of the list, behind the flags and the console.

## Main definitions

* `Config.Names`: a list of arguments, and the same list with a name for the machine
* `Config.Matches`: what rendering answers, and what the preparation ends in

## Main results

* `World.render_shows_prepared`: rendering shows what is prepared
-/

namespace Capsule

namespace Config

/-- The options between the image and the name of the machine. -/
def beforeMachine (c : Config) : List String := c.flags ++ assignment "--console" c.console

/-- The options behind the name of the machine, and the command. -/
def behindMachine (c : Config) : List String := c.laterOptions ++ c.command

/-- The arguments `words` of a configuration, and the arguments `named` of the same configuration
after it has got the name `machine`. A name that was there before stays; else two words are put in
behind the flags and the console. -/
def Names (config : Config) (machine : String) (words named : List String) : Prop :=
  (config.machine ≠ "" → named = words) ∧
    (config.machine = "" → ∃ selector path,
      words = selector :: path :: (config.beforeMachine ++ config.behindMachine) ∧
        named = selector :: path ::
          (config.beforeMachine ++ ["--machine", machine] ++ config.behindMachine))

/-- What rendering a configuration answers, and what its preparation ends in. -/
inductive Matches (config : Config) (machine : String) :
    Answer (List String) → Preparation.End → Prop
  | silent : Matches config machine .never .silent
  | failed (delay : Nat) (e : Error) : Matches config machine (.after delay (.error e)) (.failed e)
  | ready (delay : Nat) (c : Config) {words named : List String}
      (names : config.Names machine words named) :
      Matches config machine (.after delay (.ok words)) (.ready c named)

/-- How an image at a path is introduced, if there is anything to introduce. -/
def selectorAt (host : Host) (image path : String) : Except Error String :=
  if image.isEmpty then .error .noImage
  else
    match host.files.entry host.directory path with
    | .error problem => .error (.file path problem)
    | .ok entry => .ok (selector entry)

/-- Only the image decides whether there are arguments. -/
theorem argumentsAt_eq (c : Config) (host : Host) (path : String) :
    c.argumentsAt host path = (selectorAt host c.image path).map fun selector =>
      selector :: path :: (c.beforeMachine ++ option "--machine" c.machine ++ c.behindMachine) := by
  have hoptions : c.options ++ c.command =
      c.beforeMachine ++ option "--machine" c.machine ++ c.behindMachine := by
    simp only [options, beforeMachine, behindMachine, List.append_assoc]
  rw [← hoptions, argumentsAt, selectorAt]
  split
  · rfl
  · cases host.files.entry host.directory path <;> rfl

theorem option_of_eq (name : String) {value : String} (h : value = "") : option name value = [] :=
  if_pos (String.isEmpty_iff.mpr h)

theorem option_of_ne (name : String) {value : String} (h : value ≠ "") :
    option name value = [name, value] :=
  if_neg (by simpa using h)

end Config

theorem TaskId.machineName_ne_empty (id : TaskId) (name : String) : machineName id name ≠ "" := by
  intro h
  have hlength := congrArg String.length h
  have hdash : ("-" : String).length = 1 := rfl
  have hempty : ("" : String).length = 0 := rfl
  rw [machineName, String.length_append, String.length_append] at hlength
  omega

variable {σ : Type}

namespace Preparation

variable {settings : Settings} {host : Host} {config : Config} {id : TaskId} {name : String}

theorem withMachine_of_ne (h : config.machine ≠ "") : withMachine config id name = config := by
  rw [withMachine, if_neg (by simpa using h)]

theorem machine_withMachine (h : config.machine = "") :
    (withMachine config id name).machine = TaskId.machineName id name := by
  rw [withMachine, if_pos (String.isEmpty_iff.mpr h)]

theorem beforeMachine_withMachine (config : Config) (id : TaskId) (name : String) :
    (withMachine config id name).beforeMachine = config.beforeMachine := by
  rw [withMachine]
  split <;> rfl

theorem behindMachine_withMachine (config : Config) (id : TaskId) (name : String) :
    (withMachine config id name).behindMachine = config.behindMachine := by
  rw [withMachine]
  split <;> rfl

/-- With nothing to download, or without leave to, nothing is downloaded. -/
theorem download?_eq_none (h : config.download = none ∨ settings.allowDownload = false) :
    download? settings (withMachine config id name) = none := by
  rw [download?, download_withMachine]
  rcases h with h | h <;> simp [h]

/-- How a preparation ends that has found its image at a path. -/
def settled (host : Host) (config : Config) (path : String) : End :=
  match config.argumentsAt host path with
  | .ok arguments => .ready { config with imagePath := some path } arguments
  | .error e => .failed e

theorem follow_settle (bus : Bus σ) (host : Host) (config : Config) (path : String)
    (n now : Nat) (s : σ) :
    (follow bus host (n + 1) now (settle host config path) s).2 =
      (settled host config path, now, s) := by
  have harguments : Config.arguments { config with imagePath := some path } host =
      config.argumentsAt host path := rfl
  rw [follow, settle, harguments, settled]
  cases config.argumentsAt host path <;> rfl

theorem names_withMachine (config : Config) (id : TaskId) (name selector path : String) :
    config.Names (TaskId.machineName id name)
      (selector :: path :: (config.beforeMachine ++ Config.option "--machine" config.machine ++
        config.behindMachine))
      (selector :: path :: (config.beforeMachine ++
        Config.option "--machine" (withMachine config id name).machine ++
        config.behindMachine)) := by
  refine ⟨fun h => by rw [withMachine_of_ne h], fun h => ⟨selector, path, ?_, ?_⟩⟩
  · rw [Config.option_of_eq _ h, List.append_nil]
  · rw [machine_withMachine h, Config.option_of_ne _ (TaskId.machineName_ne_empty id name)]

/-- A name that is put in changes no error. -/
theorem matches_settled (host : Host) (config : Config) (id : TaskId) (name path : String)
    (delay : Nat) :
    config.Matches (TaskId.machineName id name) (.after delay (config.argumentsAt host path))
      (settled host (withMachine config id name) path) := by
  rw [settled, Config.argumentsAt_eq config, Config.argumentsAt_eq (withMachine config id name),
    image_withMachine, beforeMachine_withMachine, behindMachine_withMachine]
  cases Config.selectorAt host config.image path with
  | error e => exact .failed delay e
  | ok selector => exact .ready delay _ (names_withMachine config id name selector path)

/-- How a preparation ends that has looked for its image. -/
def located (host : Host) (config : Config) : Answer String → End
  | .never => .silent
  | .after _ (.error e) => .failed e
  | .after _ (.ok path) => settled host config path

/-- What is found leads both ways to the same. -/
theorem matches_located (host : Host) (config : Config) (id : TaskId) (name : String)
    (found : Answer String) :
    config.Matches (TaskId.machineName id name) (found.map (·.bind (config.argumentsAt host)))
      (located host (withMachine config id name) found) := by
  cases found with
  | never => exact .silent
  | after delay outcome =>
    cases outcome with
    | error e => exact .failed delay e
    | ok path => exact matches_settled host config id name path delay

/-- Looking for the image takes one call at most, and the same one as `Image.resolve`. -/
theorem follow_locate (bus : Bus σ) (host : Host) (himage : config.image ≠ "") (n now : Nat)
    (s : σ) :
    let found := Image.resolve host bus config.image s
    let r := follow bus host (n + 2) now (locate host config) s
    r.2.1 = located host config found.1 ∧ r.2.2.2 = found.2 := by
  intro found r
  have hfound : found = _ := Image.resolve_eq host bus config.image s
  rcases hdisk : Image.onDisk host config.image with e | _ | path
  · have hlocate : locate host config = fail e := by
      rw [locate, if_neg (by simpa using himage), hdisk]
    rw [hdisk] at hfound
    simp only [r, hlocate, hfound]
    exact ⟨rfl, rfl⟩
  · obtain ⟨answer, s', hbus⟩ : ∃ answer s', bus.describeImage config.image s = (answer, s') :=
      ⟨_, _, rfl⟩
    rw [hdisk, hbus] at hfound
    have hr : r = follow bus host (n + 2) now (ask config .lookingUp (.describeImage config.image))
        s := by
      rw [← locate_of_missing himage hdisk]
    rw [hr, hfound, follow]
    cases answer with
    | never => simp [ask, next, hbus, Due.ofAnswer, Answer.map, located]
    | after delay outcome =>
      simp only [ask, next, hbus, Due.ofAnswer, resume, Answer.map]
      cases Image.ofAnswer config.image outcome with
      | error e => exact ⟨rfl, rfl⟩
      | ok path => simp [follow_settle, located]
  · have hlocate : locate host config = settle host config path := by
      rw [locate, if_neg (by simpa using himage), hdisk]
    have hr : r.2 = (settled host config path, now, s) := by
      rw [← follow_settle bus host config path (n + 1) now s, ← hlocate]
    rw [hdisk] at hfound
    rw [hr, hfound]
    exact ⟨rfl, rfl⟩

end Preparation

namespace World

/-- What is rendered is what is prepared, up to the name of the machine. -/
theorem matches_run (w : World σ) (settings : Settings) (config : Config)
    (hdownload : config.download = none ∨ settings.allowDownload = false) (id : TaskId)
    (name : String) (now steps : Nat) (s : σ) :
    let r := Preparation.run w.bus settings w.host config id name now (steps + 2) s
    config.Matches (TaskId.machineName id name) (w.arguments config s).1 r.2.1 ∧
      r.2.2.2 = (w.arguments config s).2 := by
  intro r
  cases hvalid : config.validate with
  | error e =>
    have hr : r.2 = (.failed e, now, s) := by
      simp only [r, Preparation.run, Preparation.start, hvalid]
      rfl
    rw [hr, arguments, hvalid]
    exact ⟨.failed 0 e, rfl⟩
  | ok =>
    have hr : r = Preparation.follow w.bus w.host (steps + 2) now
        (Preparation.locate w.host (Preparation.withMachine config id name)) s := by
      rw [← Preparation.start_of_valid hvalid (Preparation.download?_eq_none hdownload)]
      rfl
    by_cases himage : config.image = ""
    · have hempty : (Preparation.withMachine config id name).image.isEmpty = true := by
        rw [Preparation.image_withMachine, himage]
        rfl
      have hend : r.2 = (.failed .noImage, now, s) := by
        rw [hr, Preparation.locate, if_pos hempty]
        rfl
      have harguments : w.arguments config s = (.after 0 (.error .noImage), s) := by
        rw [arguments, hvalid, Config.resolve, if_pos (String.isEmpty_iff.mpr himage)]
        rfl
      rw [hend, harguments]
      exact ⟨.failed 0 .noImage, rfl⟩
    · have hnamed := himage
      rw [← Preparation.image_withMachine id name] at hnamed
      obtain ⟨hend, hsource⟩ := Preparation.follow_locate w.bus w.host hnamed steps now s
      rw [← hr, Preparation.image_withMachine] at hend hsource
      rw [arguments_of_find hvalid himage, hend, hsource]
      exact ⟨Preparation.matches_located w.host config id name _, rfl⟩

/-- **Rendering shows what is prepared.** Let a configuration be loaded that has nothing to
download, or is not allowed to. Rendering it and preparing it both fail, with the same error, or
both come to arguments, or both wait for the bus in vain, and the bus is left in the same state. The
arguments are the same where the machine has a name; where it has none, those of the preparation
have two words more, with the name that it is given, behind the flags and the console. -/
theorem render_shows_prepared (w : World σ) (settings : Settings) {file : String} {config : Config}
    (hload : Config.load w.host file = .ok config)
    (hdownload : config.download = none ∨ settings.allowDownload = false) (id : TaskId)
    (name : String) (now steps : Nat) (s : σ) :
    ∃ answer source ended,
      (∀ lines, w.render file none lines s = shown lines source answer) ∧
        (∃ log time, Preparation.run w.bus settings w.host config id name now (steps + 2) s =
          (log, ended, time, source)) ∧
        config.Matches (TaskId.machineName id name) answer ended := by
  obtain ⟨hmatches, hsource⟩ := matches_run w settings config hdownload id name now steps s
  have hrun : Preparation.run w.bus settings w.host config id name now (steps + 2) s =
      (_, _, _, (w.arguments config s).2) := Prod.ext rfl (Prod.ext rfl (Prod.ext rfl hsource))
  exact ⟨_, _, _, fun lines => render_found hload lines s, ⟨_, _, hrun⟩, hmatches⟩

/-- The root of the host, with a console and no name for the machine. -/
theorem render_shows_prepared_ephemeral :
    let w := World.withConfig
      "\x7b\"image\": \"/\", \"ephemeral\": true, \"console\": \"pipe\"\x7d" (Bus.reporting "/srv")
    let config : Config := { image := "/", ephemeral := true, console := "pipe" }
    Config.load w.host "c.json" = .ok config ∧ config.download = none ∧
      ∃ words named,
        (∀ lines, w.render "c.json" none lines () =
          { lines := argumentLines lines words, source := () }) ∧
        (∃ log c time, Preparation.run w.bus {} w.host config "id" "n" 0 2 () =
          (log, .ready c named, time, ())) ∧
        words = ["-D", "/", "--ephemeral", "--console=pipe"] ∧
        named = ["-D", "/", "--ephemeral", "--console=pipe", "--machine", "n-id"] := by
  intro w config
  have hload : Config.load w.host "c.json" = .ok config :=
    World.load_withConfig _ (by cbv)
  obtain ⟨answer, source, ended, hrender, ⟨log, time, hrun⟩, hmatches⟩ :=
    render_shows_prepared w {} hload (.inl rfl) "id" "n" 0 0 ()
  have hdisk : Image.onDisk w.host config.image = .ok (some "/") :=
    Image.onDisk_eq_some_iff.mpr ⟨"/", rfl, by cbv, by decide⟩
  have harguments : (Preparation.withMachine config "id" "n").argumentsAt w.host "/" =
      .ok ["-D", "/", "--ephemeral", "--console=pipe", "--machine", "n-id"] := by
    cbv
  obtain ⟨c, hready⟩ : ∃ c, Preparation.run w.bus {} w.host config "id" "n" 0 2 () =
      ([(0, {})], .ready c
        ["-D", "/", "--ephemeral", "--console=pipe", "--machine", "n-id"], 0, ()) :=
    ⟨_, Preparation.run_of_onDisk (by rfl) (by rfl) hdisk harguments w.bus 1⟩
  cases hready.symm.trans hrun
  cases hmatches with
  | ready delay c names =>
    obtain ⟨selector, path, hwords, hnamed⟩ := names.2 rfl
    obtain ⟨hselector, hbehind⟩ := List.cons.inj hnamed
    obtain ⟨hpath, -⟩ := List.cons.inj hbehind
    rw [← hselector, ← hpath] at hwords
    exact ⟨hload, rfl, _, _, hrender, ⟨_, _, _, hready⟩, hwords, rfl⟩

end World

end Capsule
