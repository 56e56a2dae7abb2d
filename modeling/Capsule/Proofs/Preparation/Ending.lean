import Capsule.Schedule
import Capsule.World.Commands

/-!
# What a preparation ends in

A preparation is cut at its waits, and a step knows of those before it only what the last of them
has left. `Preparation.Leads` is what all steps on one host have in common: the configuration is
carried along unchanged, and arguments come out only as those of an image that was found. Looking
an image up is the one wait that says something of the host, namely that nothing was on disk.

Rendering without launching goes by `Config.resolve` instead of steps, and comes to the same.

## Main definitions

* `Image.Found`: the two ways to an image's path
* `Preparation.Leads`: where a step can lead

## Main results

* `Preparation.ready_of_run`: what a preparation ends in, if it ends in arguments
* `Preparation.run_eq_of_ended`: a preparation that has ended is the same for more steps
* `World.found_of_arguments`: the same of rendering
-/

namespace Capsule

variable {σ : Type} {bus : Bus σ}

namespace Image

theorem onDisk_of_ok {host : Host} {base : String} (h : host.directoryPath = .ok base)
    (reference : String) :
    onDisk host reference = .ok (if host.files.leads host.directory (Path.join base reference) then
      some (Path.join base reference) else none) := by
  rw [onDisk, h]
  rfl

/-- Nothing can be found on disk without the path of the working directory. -/
theorem onDisk_eq_error_iff {host : Host} {reference : String} {e : Error} :
    onDisk host reference = .error e ↔
      ∃ problem, host.directoryPath = .error problem ∧ e = .file "." problem := by
  rw [onDisk]
  cases host.directoryPath <;> simp [eq_comm]

/-- On disk an image is found at its name, taken from the working directory. -/
theorem onDisk_eq_some_iff {host : Host} {reference path : String} :
    onDisk host reference = .ok (some path) ↔ ∃ base, host.directoryPath = .ok base ∧
      host.files.leads host.directory (Path.join base reference) = true ∧
        Path.join base reference = path := by
  cases h : host.directoryPath with
  | error problem => simp [onDisk, h]
  | ok base => simp [onDisk_of_ok h, Option.ite_none_right_eq_some]

/-- Nothing is on disk, and the bus has reported the path in one of its states. -/
def IsReported (host : Host) (bus : Bus σ) (reference path : String) : Prop :=
  onDisk host reference = .ok none ∧ ∃ s delay outcome,
    (bus.describeImage reference s).1 = .after delay outcome ∧ ofAnswer reference outcome = .ok path

/-- Where an image is found: on disk or, if nothing is there, where the bus says. -/
inductive Found (host : Host) (bus : Bus σ) (reference path : String) : Prop
  | onDisk (there : onDisk host reference = .ok (some path))
  | reported (there : IsReported host bus reference path)

end Image

namespace Preparation

variable {host : Host} {config : Config}

/-- Where a step in the preparation of a configuration can lead. -/
inductive Leads (host : Host) (bus : Bus σ) (config : Config) : Status → Prop
  | failed (error : Error) : Leads host bus config (.failed error)
  | waiting (stage : Stage)
      (missing : stage = .lookingUp → Image.onDisk host config.image = .ok none) :
      Leads host bus config (.waiting ⟨config, stage⟩)
  | ready (path : String) {arguments : List String}
      (found : Image.Found host bus config.image path)
      (rendered : config.argumentsAt host path = .ok arguments) :
      Leads host bus config (.ready { config with imagePath := some path } arguments)

theorem image_withMachine (id : TaskId) (name : String) :
    (withMachine config id name).image = config.image := by
  rw [withMachine]
  split <;> rfl

theorem download_withMachine (id : TaskId) (name : String) :
    (withMachine config id name).download = config.download := by
  rw [withMachine]
  split <;> rfl

theorem leads_settle {path : String} (found : Image.Found host bus config.image path) :
    Leads host bus config (settle host config path).status := by
  have harguments : Config.arguments { config with imagePath := some path } host =
      config.argumentsAt host path := rfl
  rw [settle, harguments]
  cases h : config.argumentsAt host path with
  | ok arguments => exact .ready path found h
  | error e => exact .failed e

theorem leads_locate (host : Host) (bus : Bus σ) (config : Config) :
    Leads host bus config (locate host config).status := by
  rw [locate]
  split
  · exact .failed _
  · cases h : Image.onDisk host config.image with
    | error e => exact .failed e
    | ok found =>
      cases found with
      | some path => exact leads_settle (.onDisk h)
      | none => exact .waiting _ fun _ => h

theorem leads_start (settings : Settings) (host : Host) (bus : Bus σ) (config : Config)
    (id : TaskId) (name : String) :
    Leads host bus (withMachine config id name) (start settings host config id name).status := by
  rw [start]
  split
  · exact .failed _
  · cases h : download? settings (withMachine config id name) with
    | none =>
      simp only [h]
      exact leads_locate host bus _
    | some download =>
      simp only [h]
      split
      · exact .failed _
      · exact .waiting _ nofun

/-- What arrives at a preparation that waits is what it waits for: an answer of the bus to its call,
or a tick. -/
inductive Answers (bus : Bus σ) (s : σ) : Preparation → Arrival → Prop
  | pulled {config : Config} {request : PullRequest} {delay : Nat}
      {outcome : Except Error StartedTransfer}
      (given : (bus.pull request s).1 = .after delay outcome) :
      Answers bus s ⟨config, .pulling request⟩ (.pulled outcome)
  | tick (config : Config) (watch : Watch) : Answers bus s ⟨config, .pausing watch⟩ .tick
  | listed {config : Config} {watch : Watch} {delay : Nat} {outcome : Except Error (List Transfer)}
      (given : (bus.listTransfers s).1 = .after delay outcome) :
      Answers bus s ⟨config, .listing watch⟩ (.listed outcome)
  | described {config : Config} {delay : Nat} {outcome : Except Error PropertyBag}
      (given : (bus.describeImage config.image s).1 = .after delay outcome) :
      Answers bus s ⟨config, .lookingUp⟩ (.described outcome)

theorem answers_of_next {p : Preparation} {now : Nat} {s s' : σ} {due : Due}
    (h : p.next bus now s = (some due, s')) : Answers bus s p due.arrival := by
  obtain ⟨c, stage⟩ := p
  have hdue := (Prod.mk.inj h).1
  cases stage with
  | pulling request =>
    obtain ⟨_, _, hgiven, rfl⟩ := Due.ofAnswer_eq_some_iff.mp hdue
    exact .pulled hgiven
  | pausing watch =>
    cases hdue
    exact .tick c watch
  | listing watch =>
    obtain ⟨_, _, hgiven, rfl⟩ := Due.ofAnswer_eq_some_iff.mp hdue
    exact .listed hgiven
  | lookingUp =>
    obtain ⟨_, _, hgiven, rfl⟩ := Due.ofAnswer_eq_some_iff.mp hdue
    exact .described hgiven

theorem leads_resume {p : Preparation} (hp : Leads host bus config (.waiting p)) {s : σ}
    {arrival : Arrival} (harrival : Answers bus s p arrival) (now : Nat) :
    Leads host bus config (p.resume host now arrival).status := by
  cases hp with
  | waiting stage missing =>
    cases harrival with
    | @pulled _ request delay outcome given =>
      cases outcome with
      | ok started => exact .waiting _ nofun
      | error e => exact .failed e
    | tick _ watch => exact .waiting _ nofun
    | @listed _ watch delay outcome given =>
      simp only [resume]
      cases Watch.judge watch.id outcome with
      | «over» => exact leads_locate host bus _
      | active progress => exact .waiting _ nofun
    | @described _ delay outcome given =>
      simp only [resume]
      cases h : Image.ofAnswer config.image outcome with
      | ok path => exact leads_settle (.reported ⟨missing rfl, s, delay, outcome, given, h⟩)
      | error e => exact .failed e

/-- What is followed to arguments has led to arguments. -/
theorem leads_of_follow {n now time : Nat} {a : Advance} {s s' : σ} {log : Log} {c : Config}
    {arguments : List String} (ha : Leads host bus config a.status)
    (h : follow bus host n now a s = (log, .ready c arguments, time, s')) :
    Leads host bus config (.ready c arguments) := by
  -- What `Leads` says of a wait for the image is what makes the answer one that reports it.
  induction n generalizing now a s log with
  | zero => cases h
  | succ n ih =>
    rw [follow] at h
    cases hstatus : a.status with
    | ready c' arguments' =>
      rw [hstatus] at h ha
      cases h
      exact ha
    | failed e =>
      rw [hstatus] at h
      cases h
    | waiting p =>
      rw [hstatus] at h ha
      simp only at h
      split at h
      · cases h
      · rename_i due s'' hnext
        obtain ⟨-, hrest⟩ := Prod.mk.inj h
        cases ha with
        | waiting stage missing =>
          have hleads := leads_resume (.waiting stage missing) (answers_of_next hnext) due.time
          exact ih hleads (Prod.ext rfl hrest)

/-- **A preparation that ends in arguments** has found that no rule is broken and where the image
is, and its arguments are those of the image at that path. -/
theorem ready_of_run {settings : Settings} {id : TaskId} {name : String} {now steps time : Nat}
    {s s' : σ} {log : Log} {c : Config} {arguments : List String}
    (h : run bus settings host config id name now steps s = (log, .ready c arguments, time, s')) :
    config.validate = .ok () ∧ ∃ path, Image.Found host bus config.image path ∧
      c = { withMachine config id name with imagePath := some path } ∧
      (withMachine config id name).argumentsAt host path = .ok arguments := by
  cases hv : config.validate with
  | error e =>
    rw [run, start, hv] at h
    cases steps <;> cases h
  | ok u =>
    cases leads_of_follow (leads_start settings host bus config id name) h with
    | ready path found rendered =>
      rw [image_withMachine] at found
      exact ⟨rfl, path, found, rfl, rendered⟩

/-! ### Steps enough -/

/-- A preparation that has ended goes on in no other way for more steps. -/
theorem follow_of_le {n m now : Nat} {a : Advance} {s : σ} (hle : n ≤ m)
    (h : (follow bus host n now a s).2.1 ≠ .unfinished) :
    follow bus host m now a s = follow bus host n now a s := by
  induction n generalizing m now a s with
  | zero => exact absurd rfl h
  | succ n ih =>
    cases m with
    | zero => exact absurd hle (Nat.not_succ_le_zero n)
    | succ m =>
      cases hstatus : a.status with
      | ready c arguments => simp only [follow, hstatus]
      | failed e => simp only [follow, hstatus]
      | waiting p =>
        obtain ⟨due, s', hnext⟩ : ∃ due s', p.next bus now s = (due, s') := ⟨_, _, rfl⟩
        simp only [follow, hstatus, hnext] at h ⊢
        cases due with
        | none => rfl
        | some due =>
          simp only at h ⊢
          rw [ih (Nat.le_of_succ_le_succ hle) h]

/-- Two courses of one preparation that have both ended are the same. -/
theorem run_eq_of_ended {settings : Settings} {config : Config} {id : TaskId} {name : String}
    {now n m : Nat} {s : σ}
    (hn : (run bus settings host config id name now n s).2.1 ≠ .unfinished)
    (hm : (run bus settings host config id name now m s).2.1 ≠ .unfinished) :
    run bus settings host config id name now n s =
      run bus settings host config id name now m s := by
  rcases Nat.le_total n m with h | h
  · exact (follow_of_le h hn).symm
  · exact follow_of_le h hm

/-! ### Ending without a download -/

section

variable {settings : Settings} {id : TaskId} {name : String} {now : Nat} {s : σ} {path : String}
  {arguments : List String}

theorem locate_of_onDisk (hdisk : Image.onDisk host config.image = .ok (some path))
    (harguments : config.argumentsAt host path = .ok arguments) :
    locate host config =
      { status := .ready { config with imagePath := some path } arguments } := by
  have himage : config.image ≠ "" := (Config.argumentsAt_eq_ok_iff.mp harguments).1
  have hsettle : Config.arguments { config with imagePath := some path } host = .ok arguments :=
    harguments
  rw [locate, if_neg (by simpa using himage), hdisk]
  simp only [settle, hsettle]

theorem locate_of_missing (himage : config.image ≠ "")
    (hmissing : Image.onDisk host config.image = .ok none) :
    locate host config = ask config .lookingUp (.describeImage config.image) := by
  rw [locate, if_neg (by simpa using himage), hmissing]

theorem start_of_valid (hvalid : config.validate = .ok ())
    (hdownload : download? settings (withMachine config id name) = none) :
    start settings host config id name = locate host (withMachine config id name) := by
  rw [start, hvalid]
  simp only [hdownload]

/-- **An image on disk is found at once.** -/
theorem run_of_onDisk (hvalid : config.validate = .ok ())
    (hdownload : download? settings (withMachine config id name) = none)
    (hdisk : Image.onDisk host config.image = .ok (some path))
    (harguments : (withMachine config id name).argumentsAt host path = .ok arguments)
    (bus : Bus σ) (steps : Nat) :
    run bus settings host config id name now (steps + 1) s =
      ([(now, {})], .ready { withMachine config id name with imagePath := some path } arguments,
        now, s) := by
  rw [← image_withMachine id name] at hdisk
  rw [run, start_of_valid hvalid hdownload, locate_of_onDisk hdisk harguments]
  rfl

/-- **Any other image is found by one call.** -/
theorem run_of_reported (hvalid : config.validate = .ok ())
    (hdownload : download? settings (withMachine config id name) = none)
    (hmissing : Image.onDisk host config.image = .ok none) {bus : Bus σ} {delay : Nat}
    {outcome : Except Error PropertyBag} {s' : σ}
    (hbus : bus.describeImage config.image s = (.after delay outcome, s'))
    (hanswer : Image.ofAnswer config.image outcome = .ok path)
    (harguments : (withMachine config id name).argumentsAt host path = .ok arguments)
    (steps : Nat) :
    run bus settings host config id name now (steps + 2) s =
      ([(now, { calls := [.describeImage config.image] }), (now + delay, {})],
        .ready { withMachine config id name with imagePath := some path } arguments,
        now + delay, s') := by
  have himage := (Config.argumentsAt_eq_ok_iff.mp harguments).1
  rw [← image_withMachine id name] at hmissing hbus hanswer ⊢
  have hsettle : Config.arguments { withMachine config id name with imagePath := some path } host =
      .ok arguments := harguments
  rw [run, start_of_valid hvalid hdownload, locate_of_missing himage hmissing]
  simp only [follow, ask, next, hbus, Due.ofAnswer, resume, hanswer, settle, hsettle]
  rfl

end

end Preparation

variable {w : World σ} {config : Config} {s s' : σ}

/-- Looking for an image is a look at the disk, and what follows on what is there. -/
theorem Image.resolve_eq (host : Host) (bus : Bus σ) (reference : String) (s : σ) :
    resolve host bus reference s =
      match onDisk host reference with
      | .error e => (.after 0 (.error e), s)
      | .ok (some path) => (.after 0 (.ok path), s)
      | .ok none =>
        ((bus.describeImage reference s).1.map (ofAnswer reference),
          (bus.describeImage reference s).2) := by
  rw [resolve, onDisk]
  cases host.directoryPath with
  | error problem => rfl
  | ok base =>
    dsimp only
    unfold find
    cases onDiskFrom? host base reference <;> rfl

namespace Config

theorem resolve_of_error {host : Host} (bus : Bus σ) (s : σ) {e : Error}
    (himage : config.image ≠ "") (h : Image.onDisk host config.image = .error e) :
    config.resolve host bus s = (config, .after 0 (.error e), s) := by
  rw [resolve, if_neg (by simpa using himage), Image.resolve_eq, h]

theorem resolve_of_onDisk {host : Host} (bus : Bus σ) (s : σ) {path : String}
    (himage : config.image ≠ "") (h : Image.onDisk host config.image = .ok (some path)) :
    config.resolve host bus s =
      ({ config with imagePath := some path }, .after 0 (.ok path), s) := by
  rw [resolve, if_neg (by simpa using himage), Image.resolve_eq, h]

theorem resolve_of_missing {host : Host} (himage : config.image ≠ "")
    (h : Image.onDisk host config.image = .ok none) {answer : Answer PropertyBag}
    (hbus : bus.describeImage config.image s = (answer, s')) :
    config.resolve host bus s =
      match answer.map (Image.ofAnswer config.image) with
      | .after delay (.ok path) =>
        ({ config with imagePath := some path }, .after delay (.ok path), s')
      | other => (config, other, s') := by
  rw [resolve, if_neg (by simpa using himage), Image.resolve_eq, h, hbus]
  cases answer.map (Image.ofAnswer config.image) with
  | never => rfl
  | after delay outcome => cases outcome <;> rfl

theorem found_of_resolve {host : Host} {c : Config} {delay : Nat} {path : String}
    (h : config.resolve host bus s = (c, .after delay (.ok path), s')) :
    Image.Found host bus config.image path ∧ c = { config with imagePath := some path } := by
  by_cases himage : config.image = ""
  · rw [resolve, if_pos (by simp [himage])] at h
    cases h
  · rcases hdisk : Image.onDisk host config.image with e | _ | found
    · rw [resolve_of_error bus s himage hdisk] at h
      cases h
    · rw [resolve_of_missing himage hdisk rfl] at h
      split at h
      · rename_i hanswer
        obtain ⟨outcome, hgiven, hpath⟩ := Answer.map_eq_after_iff.mp hanswer
        cases h
        exact ⟨.reported ⟨hdisk, s, delay, outcome, hgiven, hpath⟩, rfl⟩
      · rename_i hnot
        obtain ⟨-, hanswer⟩ := Prod.mk.inj h
        exact absurd (Prod.mk.inj hanswer).1 (hnot delay path)
    · rw [resolve_of_onDisk bus s himage hdisk] at h
      cases h
      exact ⟨.onDisk hdisk, rfl⟩

end Config

/-- Rendering looks for the image as well. -/
theorem World.arguments_of_find (hvalid : config.validate = .ok ()) (himage : config.image ≠ "")
    (s : σ) :
    let found := Image.resolve w.host w.bus config.image s
    w.arguments config s = (found.1.map (·.bind (config.argumentsAt w.host)), found.2) := by
  intro found
  obtain ⟨answer, s', hfind⟩ : ∃ answer s', found = (answer, s') := ⟨_, _, rfl⟩
  have hresolve : Image.resolve w.host w.bus config.image s = (answer, s') := hfind
  rw [hfind, arguments, hvalid, Config.resolve, if_neg (by simpa using himage), hresolve]
  cases answer with
  | never => rfl
  | after delay outcome => cases outcome <;> rfl

/-- An image on disk is found at once. -/
theorem World.arguments_of_onDisk {path : String} {arguments : List String}
    (hvalid : config.validate = .ok ()) (hdisk : Image.onDisk w.host config.image = .ok (some path))
    (harguments : config.argumentsAt w.host path = .ok arguments) (s : σ) :
    w.arguments config s = (.after 0 (.ok arguments), s) := by
  have himage : config.image ≠ "" := (Config.argumentsAt_eq_ok_iff.mp harguments).1
  rw [World.arguments_of_find hvalid himage, Image.resolve_eq, hdisk]
  simp only [Answer.map, Except.bind, harguments]

/-- **Rendering that ends in arguments** has found as much. -/
theorem World.found_of_arguments {delay : Nat} {arguments : List String}
    (h : w.arguments config s = (.after delay (.ok arguments), s')) :
    config.validate = .ok () ∧ ∃ path, Image.Found w.host w.bus config.image path ∧
      config.argumentsAt w.host path = .ok arguments := by
  rw [World.arguments] at h
  cases hv : config.validate with
  | error e => simp [hv] at h
  | ok u =>
    simp only [hv] at h
    obtain ⟨given, hgiven, hbind⟩ := Answer.map_eq_after_iff.mp (Prod.mk.inj h).1
    cases given with
    | error e => cases hbind
    | ok path =>
      have hresolve : config.resolve w.host w.bus s =
          ((config.resolve w.host w.bus s).1, .after delay (.ok path), _) :=
        Prod.ext rfl (Prod.ext hgiven rfl)
      obtain ⟨hfound, hconfig⟩ := Config.found_of_resolve hresolve
      refine ⟨rfl, path, hfound, ?_⟩
      have harguments : (config.resolve w.host w.bus s).1.arguments w.host = .ok arguments := hbind
      rw [hconfig] at harguments
      exact harguments

end Capsule
