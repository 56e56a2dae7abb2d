import Capsule.Proofs.Preparation.Ending
import Capsule.Supervisor

/-!
# A launch in one piece

A launch is cut at its waits, and the order of its stages is spread over the steps between them.
Here it is put together again. `Journey.launch` is the launch as it would be written if it could
wait where it is: its stages stand below each other, and the first that fails is the last. What it
waits for comes from a list of meetings, each with the surroundings in which the launch goes on, so
that a journey is a function of what the launch meets.

`Journey.pursue` takes the steps of a launch one after the other, each with what the last one has
left. Both are the same (`Journey.pursue_start`), so what is said of the stages holds of the steps.

## What may arrive

A launch that waits for one thing may be given another, which changes nothing; a journey passes such
meetings over. The watch of a transfer is a loop, and each of its rounds uses up meetings, so there
are no more rounds than meetings.

## Main definitions

* `Scene`, `Meeting`: what a launch meets
* `Journey`, `Journey.launch`: the stages of a launch
* `Journey.lead`, `Journey.pursue`: its steps

## Main results

* `Journey.pursue_start`: the steps of a launch are its stages
-/

namespace Capsule

/-- What is added to effects by what comes after. -/
instance : Append Effects where
  append a b :=
    { calls := a.calls ++ b.calls
      reports := a.reports ++ b.reports
      starts := a.starts ++ b.starts
      started := a.started ++ b.started
      signals := a.signals ++ b.signals }

namespace Effects

variable (a b c : Effects)

@[simp] theorem calls_append : (a ++ b).calls = a.calls ++ b.calls := rfl

@[simp] theorem reports_append : (a ++ b).reports = a.reports ++ b.reports := rfl

@[simp] theorem starts_append : (a ++ b).starts = a.starts ++ b.starts := rfl

@[simp] theorem started_append : (a ++ b).started = a.started ++ b.started := rfl

@[simp] theorem signals_append : (a ++ b).signals = a.signals ++ b.signals := rfl

@[ext] theorem ext {a b : Effects} (hc : a.calls = b.calls) (hr : a.reports = b.reports)
    (hs : a.starts = b.starts) (hd : a.started = b.started) (hg : a.signals = b.signals) :
    a = b := by
  cases a
  cases b
  simp_all

@[simp] theorem append_empty : a ++ ({} : Effects) = a := by
  ext1 <;> simp

@[simp] theorem empty_append : ({} : Effects) ++ a = a := by
  ext1 <;> simp

theorem append_assoc : a ++ b ++ c = a ++ (b ++ c) := by
  ext1 <;> simp

end Effects

/-- Where a launch begins or goes on. -/
structure Scene where
  surroundings : Surroundings
  /-- How often a process was to be started before. -/
  starts : Nat

/-- What a launch that waited was given, and where it goes on with that. -/
structure Meeting where
  time : Nat
  arrival : Arrival
  scene : Scene

/-- A launch on its way. -/
structure Journey.Point where
  scene : Scene
  /-- What it will meet. -/
  ahead : List Meeting
  /-- What it has done. -/
  effects : Effects := {}

/-- Why a launch does not go on. -/
inductive Journey.Halt
  | failed (error : Error)
  /-- What it waits for has not come. -/
  | waiting

/-- A part of a launch. -/
abbrev Journey := EStateM Journey.Halt Journey.Point

/-- What a launch comes to. -/
structure Arrived where
  /-- The configuration, as it was used. -/
  config : Config
  arguments : List String
  process : Child

namespace Journey

theorem bind_apply {α β : Type} (m : Journey α) (k : α → Journey β) (x : Point) :
    (m >>= k) x = match m x with
      | .ok a y => k a y
      | .error e y => .error e y := by
  simp only [bind, EStateM.bind]
  cases m x <;> rfl

/-- Does something outside. -/
def act (e : Effects) : Journey Unit := modify fun x => { x with effects := x.effects ++ e }

/-- Goes on with a value, if there is one. -/
def ofExcept {α : Type} : Except Error α → Journey α
  | .ok a => pure a
  | .error e => throw (.failed e)

/-- Passes over what is not expected. -/
def awaitFrom {α : Type} (expected : Arrival → Option α) (effects : Effects) :
    Scene → List Meeting → EStateM.Result Halt Point (Nat × α)
  | scene, [] => .error .waiting { scene, ahead := [], effects }
  | _, m :: ms =>
    match expected m.arrival with
    | some a => .ok (m.time, a) { scene := m.scene, ahead := ms, effects }
    | none => awaitFrom expected effects m.scene ms

/-- Waits for something, and gives the time at which it came. -/
def await {α : Type} (expected : Arrival → Option α) : Journey (Nat × α) := fun x =>
  awaitFrom expected x.effects x.scene x.ahead

theorem act_bind {α : Type} (e : Effects) (k : Unit → Journey α) (x : Point) :
    (act e >>= k) x = k () { x with effects := x.effects ++ e } := rfl

/-- What becomes of a wait: it ends at the first meeting with what is expected, or there is no such
meeting. -/
theorem await_cases {α : Type} (expected : Arrival → Option α) (x : Point) :
    (∃ passed m rest a, x.ahead = passed ++ m :: rest ∧ expected m.arrival = some a ∧
      await expected x = .ok (m.time, a) ⟨m.scene, rest, x.effects⟩) ∨
    ∃ scene, await expected x = .error .waiting ⟨scene, [], x.effects⟩ := by
  obtain ⟨scene, ahead, effects⟩ := x
  induction ahead generalizing scene with
  | nil => exact .inr ⟨scene, rfl⟩
  | cons m ms ih =>
    cases hm : expected m.arrival with
    | some a =>
      refine .inl ⟨[], m, ms, a, rfl, hm, ?_⟩
      simp only [await, awaitFrom, hm]
    | none =>
      have hpass : await expected ⟨scene, m :: ms, effects⟩ =
          await expected ⟨m.scene, ms, effects⟩ := by
        simp only [await, awaitFrom, hm]
      rw [hpass]
      rcases ih m.scene with ⟨passed, m', rest, a, hahead, ha, hawait⟩ | hwaits
      · exact .inl ⟨m :: passed, m', rest, a, congrArg (m :: ·) hahead, ha, hawait⟩
      · exact .inr hwaits

/-- What came has been met. -/
theorem length_of_await {α : Type} {expected : Arrival → Option α} {x y : Point} {r : Nat × α}
    (h : await expected x = .ok r y) : y.ahead.length < x.ahead.length := by
  rcases await_cases expected x with ⟨passed, m, rest, a, hahead, -, hawait⟩ | ⟨scene, hawait⟩
  · cases hawait.symm.trans h
    show rest.length < x.ahead.length
    rw [hahead, List.length_append, List.length_cons]
    omega
  · cases hawait.symm.trans h

theorem exists_meeting_of_await {α : Type} {expected : Arrival → Option α} {x y : Point}
    {r : Nat × α} (h : await expected x = .ok r y) :
    ∃ m ∈ x.ahead, expected m.arrival = some r.2 := by
  rcases await_cases expected x with ⟨passed, m, rest, a, hahead, ha, hawait⟩ | ⟨scene, hawait⟩
  · cases hawait.symm.trans h
    exact ⟨m, by simp [hahead], ha⟩
  · cases hawait.symm.trans h

/-- A wait does not fail, but may be in vain. -/
theorem await_eq_error {α : Type} {expected : Arrival → Option α} {x y : Point} {halt : Halt}
    (h : await expected x = .error halt y) : halt = .waiting := by
  rcases await_cases expected x with ⟨_, _, _, _, -, -, hawait⟩ | ⟨scene, hawait⟩
  · cases hawait.symm.trans h
  · cases hawait.symm.trans h
    rfl

/-- What follows a wait need be known only with fewer meetings ahead. -/
theorem await_congr {α β : Type} {expected : Arrival → Option α} {k l : Nat × α → Journey β}
    {x : Point} (h : ∀ r y, y.ahead.length < x.ahead.length → k r y = l r y) :
    (await expected >>= k) x = (await expected >>= l) x := by
  rw [bind_apply, bind_apply]
  cases hawait : await expected x with
  | ok r y => exact h r y (length_of_await hawait)
  | error e y => rfl

end Journey

namespace Arrival

def tick? : Arrival → Option Unit
  | .tick => some ()
  | _ => none

def pulled? : Arrival → Option (Except Error StartedTransfer)
  | .pulled outcome => some outcome
  | _ => none

def listed? : Arrival → Option (Except Error (List Transfer))
  | .listed outcome => some outcome
  | _ => none

def described? : Arrival → Option (Except Error PropertyBag)
  | .described outcome => some outcome
  | _ => none

theorem eq_tick (a : Arrival) (u : Unit) (h : a.tick? = some u) : a = .tick := by
  cases a <;> cases h
  rfl

theorem eq_pulled (a : Arrival) (outcome : Except Error StartedTransfer)
    (h : a.pulled? = some outcome) : a = .pulled outcome := by
  cases a <;> cases h
  rfl

theorem eq_listed (a : Arrival) (outcome : Except Error (List Transfer))
    (h : a.listed? = some outcome) : a = .listed outcome := by
  cases a <;> cases h
  rfl

theorem eq_described (a : Arrival) (outcome : Except Error PropertyBag)
    (h : a.described? = some outcome) : a = .described outcome := by
  cases a <;> cases h
  rfl

end Arrival

namespace Journey

/-- Watches a transfer for at most so many rounds. -/
def watchFor : Nat → Watch → Journey Unit
  | 0, _ => throw .waiting
  | n + 1, w => do
    let (time, _) ← await Arrival.tick?
    act { calls := [.listTransfers] }
    let (_, outcome) ← await Arrival.listed?
    match Watch.judge w.id outcome with
    | .over => pure ()
    | .active progress =>
      act { reports := (progress.map fun d => ⟨w.image, d⟩).toList }
      watchFor n { w with ticker := w.ticker.fired time }

/-- Watches a transfer until it is over. -/
def watch (w : Watch) : Journey Unit := do
  watchFor (← get).ahead.length w

/-- Fetches an image. -/
def fetch (request : PullRequest) : Journey Unit := do
  act { calls := [.pull request] }
  let (time, outcome) ← await Arrival.pulled?
  let started ← ofExcept outcome
  watch (.start started.id request.name time)

/-- The settings, as they are now. -/
def settings : Journey Settings := do
  return (← get).scene.surroundings.settings

theorem settings_bind {α : Type} (k : Settings → Journey α) (x : Point) :
    (settings >>= k) x = k x.scene.surroundings.settings x := rfl

/-- Fetches the image of a configuration, if that is asked for and allowed. -/
def download (config : Config) : Journey Unit := do
  match Preparation.download? (← settings) config with
  | none => pure ()
  | some download => do
    let request ← ofExcept (download.request config.image)
    fetch request

/-- The host, as it is now. -/
def host : Journey Host := do
  return (← get).scene.surroundings.host

theorem host_bind {α : Type} (k : Host → Journey α) (x : Point) :
    (host >>= k) x = k x.scene.surroundings.host x := rfl

theorem host_bind_const {α : Type} (m : Journey α) : (host >>= fun _ => m) = m := rfl

/-- Finds the path of a configuration's image. -/
def find (config : Config) : Journey String := do
  if config.image.isEmpty then throw (.failed .noImage)
  else
    match ← ofExcept (Image.onDisk (← host) config.image) with
    | some path => return path
    | none =>
      act { calls := [.describeImage config.image] }
      let (_, outcome) ← await Arrival.described?
      ofExcept (Image.ofAnswer config.image outcome)

/-- Finds the image of a configuration, and keeps its path. -/
def resolve (config : Config) : Journey Config := do
  return { config with imagePath := some (← find config) }

/-- Puts the arguments together. -/
def render (config : Config) : Journey (List String) := do
  ofExcept (config.arguments (← host))

/-- Starts a process. -/
def start (id : TaskId) (arguments : List String) : Journey Child := do
  let scene := (← get).scene
  match scene.surroundings.launcher scene.starts arguments with
  | .error failure =>
    act { starts := [arguments] }
    throw (.failed (.process failure))
  | .ok process =>
    act { starts := [arguments], started := [⟨scene.starts, id, process⟩] }
    pure process

theorem start_of_error {x : Point} {arguments : List String} {failure : ProcessFailure}
    (hw : x.scene.surroundings.launcher x.scene.starts arguments = .error failure) (id : TaskId) :
    start id arguments x = .error (.failed (.process failure))
      { x with effects := x.effects ++ { starts := [arguments] } } := by
  show (match x.scene.surroundings.launcher x.scene.starts arguments with
    | .error failure => _
    | .ok process => _ : Journey Child) x = _
  rw [hw]
  rfl

theorem start_of_ok {x : Point} {arguments : List String} {process : Child}
    (hw : x.scene.surroundings.launcher x.scene.starts arguments = .ok process) (id : TaskId) :
    start id arguments x = .ok process
      { x with effects := x.effects ++
        { starts := [arguments], started := [⟨x.scene.starts, id, process⟩] } } := by
  show (match x.scene.surroundings.launcher x.scene.starts arguments with
    | .error failure => _
    | .ok process => _ : Journey Child) x = _
  rw [hw]
  rfl

/-- The stages before the start. -/
def prepare (id : TaskId) (name : String) (config : Config) : Journey (Config × List String) := do
  ofExcept config.validate
  let config := Preparation.withMachine config id name
  download config
  let config ← resolve config
  let arguments ← render config
  return (config, arguments)

/-- The stages of a launch whose id has been reserved, up to the tracking of its task. -/
def launch (id : TaskId) (name : String) (config : Config) : Journey Arrived := do
  let (config, arguments) ← prepare id name config
  let process ← start id arguments
  return ⟨config, arguments, process⟩

/-- The stages behind the look for the image. -/
def finish (id : TaskId) (config : Config) (path : String) : Journey Arrived := do
  let config := { config with imagePath := some path }
  let arguments ← render config
  let process ← start id arguments
  return ⟨config, arguments, process⟩

/-- The stages behind the download. -/
def conclude (id : TaskId) (config : Config) : Journey Arrived := do
  let config ← resolve config
  let arguments ← render config
  let process ← start id arguments
  return ⟨config, arguments, process⟩

theorem conclude_eq (id : TaskId) (config : Config) :
    conclude id config = (do finish id config (← find config)) := by
  rw [conclude, resolve]
  simp only [bind_assoc, pure_bind, finish]

/-! ### The steps -/

/-- What a step of a preparation does outside. -/
def effectsOf (a : Advance) : Effects := { calls := a.call.toList, reports := a.report.toList }

/-- Where steps lead from a status on, each with the next meeting. -/
def leadFrom (id : TaskId) : Preparation.Status → Scene → Effects → List Meeting →
    EStateM.Result Halt Point Arrived
  | .failed e, scene, effects, ahead => .error (.failed e) { scene, ahead, effects }
  | .ready config arguments, scene, effects, ahead =>
    (do return ⟨config, arguments, ← start id arguments⟩ : Journey Arrived)
      { scene, ahead, effects }
  | .waiting _, scene, effects, [] => .error .waiting { scene, ahead := [], effects }
  | .waiting p, _, effects, m :: ms =>
    let a := p.resume m.scene.surroundings.host m.time m.arrival
    leadFrom id a.status m.scene (effects ++ effectsOf a) ms

/-- What a launch comes to from a status on. -/
def lead (id : TaskId) (status : Preparation.Status) : Journey Arrived := fun x =>
  leadFrom id status x.scene x.effects x.ahead

/-- What a launch comes to from the step on that has just been taken. -/
def pursue (id : TaskId) (a : Advance) : Journey Arrived := do
  act (effectsOf a)
  lead id a.status

variable {id : TaskId}

theorem lead_failed (e : Error) : lead id (.failed e) = throw (.failed e) := by
  funext ⟨scene, ahead, effects⟩
  rw [lead, leadFrom]
  rfl

theorem lead_ready (config : Config) (arguments : List String) :
    lead id (.ready config arguments) = (do return ⟨config, arguments, ← start id arguments⟩) := by
  funext ⟨scene, ahead, effects⟩
  rw [lead, leadFrom]

theorem lead_waiting_nil (p : Preparation) (scene : Scene) (effects : Effects) :
    lead id (.waiting p) ⟨scene, [], effects⟩ = .error .waiting ⟨scene, [], effects⟩ := by
  rw [lead, leadFrom]

theorem lead_waiting_cons (p : Preparation) (scene : Scene) (m : Meeting) (ms : List Meeting)
    (effects : Effects) :
    lead id (.waiting p) ⟨scene, m :: ms, effects⟩ =
      pursue id (p.resume m.scene.surroundings.host m.time m.arrival) ⟨m.scene, ms, effects⟩ := by
  rw [lead, leadFrom]
  rfl

theorem act_empty : act {} = pure () := by
  funext x
  show EStateM.Result.ok () { x with effects := x.effects ++ ({} : Effects) } = _
  rw [Effects.append_empty]
  rfl

/-- A step that does nothing outside is where it leads. -/
theorem pursue_silent (status : Preparation.Status) : pursue id { status } = lead id status := by
  have hsilent : effectsOf { status } = {} := rfl
  rw [pursue, hsilent, act_empty, pure_bind]

theorem pursue_fail (e : Error) : pursue id (Preparation.fail e) = throw (.failed e) := by
  rw [Preparation.fail, pursue_silent, lead_failed]

theorem pursue_ready (config : Config) (arguments : List String) :
    pursue id { status := .ready config arguments } =
      (do return ⟨config, arguments, ← start id arguments⟩) := by
  rw [pursue_silent, lead_ready]

theorem pursue_ask (config : Config) (stage : Stage) (call : Call) :
    pursue id (Preparation.ask config stage call) = (do
      act { calls := [call] }
      lead id (.waiting ⟨config, stage⟩)) := rfl

theorem pursue_pause (config : Config) (w : Watch) :
    pursue id (Preparation.pause config w) = lead id (.waiting ⟨config, .pausing w⟩) :=
  pursue_silent _

theorem pursue_report (p : Preparation) (report : Option Progress) :
    pursue id { status := .waiting p, report } = (do
      act { reports := report.toList }
      lead id (.waiting p)) := rfl

/-- **Steps that wait are waits.** A preparation that goes on with one kind of arrival only, and
stays as it is with any other, waits for that kind. -/
theorem lead_waiting {α : Type} {p : Preparation} (expected : Arrival → Option α)
    (given : α → Arrival) (hgiven : ∀ arrival a, expected arrival = some a → arrival = given a)
    (hother : ∀ host now arrival, expected arrival = none →
      p.resume host now arrival = { status := .waiting p }) :
    lead id (.waiting p) = (do
      let (time, a) ← await expected
      pursue id (p.resume (← host) time (given a))) := by
  funext ⟨scene, ahead, effects⟩
  induction ahead generalizing scene with
  | nil => exact lead_waiting_nil p scene effects
  | cons m ms ih =>
    rw [lead_waiting_cons, bind_apply]
    cases hm : expected m.arrival with
    | some a =>
      have hawait : await expected ⟨scene, m :: ms, effects⟩ =
          .ok (m.time, a) ⟨m.scene, ms, effects⟩ := by
        simp only [await, awaitFrom, hm]
      rw [hgiven _ _ hm]
      simp only [hawait]
      rfl
    | none =>
      have hawait : await expected ⟨scene, m :: ms, effects⟩ =
          await expected ⟨m.scene, ms, effects⟩ := by
        simp only [await, awaitFrom, hm]
      rw [hawait, ← bind_apply, hother _ _ _ hm, pursue_silent]
      exact ih m.scene

/-! ### The steps of a stage are that stage -/

variable {config : Config}

theorem pursue_settle (path : String) :
    (do pursue id (Preparation.settle (← host) config path)) = finish id config path := by
  funext x
  show pursue id (Preparation.settle x.scene.surroundings.host config path) x =
    (do
      let arguments ← ofExcept (Config.arguments { config with imagePath := some path }
        x.scene.surroundings.host)
      let process ← start id arguments
      return ⟨{ config with imagePath := some path }, arguments, process⟩ : Journey Arrived) x
  rw [Preparation.settle]
  cases Config.arguments { config with imagePath := some path } x.scene.surroundings.host with
  | ok arguments => simp only [pursue_ready, ofExcept, pure_bind]
  | error e =>
    simp only [pursue_fail, ofExcept]
    rfl

theorem lead_lookingUp :
    lead id (.waiting ⟨config, .lookingUp⟩) = (do
      let (_, outcome) ← await Arrival.described?
      finish id config (← ofExcept (Image.ofAnswer config.image outcome))) := by
  rw [lead_waiting Arrival.described? .described Arrival.eq_described]
  · congr 1
    funext r
    obtain ⟨time, outcome⟩ := r
    simp only [Preparation.resume]
    cases Image.ofAnswer config.image outcome with
    | ok path => exact pursue_settle path
    | error e =>
      simp only [pursue_fail]
      rfl
  · intro host now arrival h
    cases arrival <;> first | rfl | cases h

theorem pursue_locate :
    (do pursue id (Preparation.locate (← host) config)) = conclude id config := by
  rw [conclude_eq]
  funext x
  show pursue id (Preparation.locate x.scene.surroundings.host config) x = _
  rw [Preparation.locate, find]
  by_cases himage : config.image.isEmpty = true
  · rw [if_pos himage, if_pos himage, pursue_fail]
    rfl
  · rw [if_neg himage, if_neg himage, bind_assoc, host_bind]
    rcases Image.onDisk x.scene.surroundings.host config.image with e | _ | path
    · simp only [pursue_fail]
      rfl
    · simp only [pursue_ask, lead_lookingUp, bind_assoc, ofExcept, pure_bind]
    · show _ = finish id config path x
      rw [← pursue_settle]
      rfl

theorem lead_listing (w : Watch) :
    lead id (.waiting ⟨config, .listing w⟩) = (do
      let (_, outcome) ← await Arrival.listed?
      match Watch.judge w.id outcome with
      | .over => conclude id config
      | .active progress =>
        act { reports := (progress.map fun d => ⟨w.image, d⟩).toList }
        pursue id (Preparation.pause config w)) := by
  rw [lead_waiting Arrival.listed? .listed Arrival.eq_listed]
  · congr 1
    funext r
    obtain ⟨time, outcome⟩ := r
    simp only [Preparation.resume]
    cases Watch.judge w.id outcome with
    | «over» => exact pursue_locate
    | active progress =>
      simp only [pursue_pause]
      exact pursue_report _ _
  · intro host now arrival h
    cases arrival <;> first | rfl | cases h

theorem pursue_pausing (w : Watch) :
    pursue id (Preparation.pause config w) = (do
      let (time, _) ← await Arrival.tick?
      act { calls := [.listTransfers] }
      let (_, outcome) ← await Arrival.listed?
      match Watch.judge w.id outcome with
      | .over => conclude id config
      | .active progress =>
        act { reports := (progress.map fun d => ⟨w.image, d⟩).toList }
        pursue id (Preparation.pause config { w with ticker := w.ticker.fired time })) := by
  rw [pursue_pause, lead_waiting Arrival.tick? (fun _ => .tick) Arrival.eq_tick]
  · congr 1
    funext r
    obtain ⟨time, -⟩ := r
    simp only [Preparation.resume]
    rw [host_bind_const, pursue_ask, lead_listing]
  · intro host now arrival h
    cases arrival <;> first | rfl | cases h

theorem pursue_watchFor (n : Nat) (w : Watch) (x : Point) (hx : x.ahead.length ≤ n) :
    pursue id (Preparation.pause config w) x = (do watchFor n w; conclude id config) x := by
  -- Each round uses up two meetings, so the bound on the rounds stays above what is ahead.
  induction n generalizing w x with
  | zero =>
    obtain ⟨scene, ahead, effects⟩ := x
    obtain rfl : ahead = [] := List.eq_nil_of_length_eq_zero (Nat.le_zero.mp hx)
    rw [pursue_pausing, watchFor]
    rfl
  | succ n ih =>
    rw [pursue_pausing, watchFor, bind_assoc]
    refine await_congr fun tick y hy => ?_
    simp only [bind_assoc, act_bind]
    refine await_congr fun r z hz => ?_
    dsimp only at hz ⊢
    cases Watch.judge w.id r.2 with
    | «over» => rfl
    | active progress =>
      simp only [bind_assoc, act_bind]
      exact ih _ _ (by dsimp only; omega)

theorem pursue_watch (w : Watch) :
    pursue id (Preparation.pause config w) = (do watch w; conclude id config) := by
  funext x
  exact pursue_watchFor x.ahead.length w x (Nat.le_refl _)

theorem pursue_fetch (request : PullRequest) :
    pursue id (Preparation.ask config (.pulling request) (.pull request)) = (do
      fetch request
      conclude id config) := by
  rw [pursue_ask, lead_waiting Arrival.pulled? .pulled Arrival.eq_pulled]
  · simp only [fetch, bind_assoc]
    congr 1
    funext _
    congr 1
    funext r
    obtain ⟨time, outcome⟩ := r
    cases outcome with
    | ok started =>
      simp only [Preparation.resume]
      rw [host_bind_const, pursue_watch]
      rfl
    | error e =>
      simp only [Preparation.resume]
      rw [host_bind_const, pursue_fail]
      rfl
  · intro host now arrival h
    cases arrival <;> first | rfl | cases h

/-- **The steps of a launch are its stages.** -/
theorem pursue_start (name : String) (x : Point) :
    pursue id (Preparation.start x.scene.surroundings.settings x.scene.surroundings.host config id
      name) x = launch id name config x := by
  have hlaunch : launch id name config = (do
      ofExcept config.validate
      download (Preparation.withMachine config id name)
      conclude id (Preparation.withMachine config id name)) := by
    rw [launch, prepare]
    simp only [bind_assoc, pure_bind]
    rfl
  rw [hlaunch, Preparation.start]
  cases config.validate with
  | error e =>
    rw [pursue_fail]
    rfl
  | ok u =>
    generalize Preparation.withMachine config id name = named
    show _ = (do download named; conclude id named : Journey Arrived) x
    dsimp only
    rw [download, bind_assoc, settings_bind]
    cases Preparation.download? x.scene.surroundings.settings named with
    | none => exact congrFun pursue_locate x
    | some d =>
      simp only [bind_assoc]
      cases d.request named.image with
      | error e =>
        rw [pursue_fail]
        rfl
      | ok request => exact congrFun (pursue_fetch request) x

end Journey

end Capsule
