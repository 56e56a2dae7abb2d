import Capsule.Bus.Script
import Capsule.Proofs.Bus.Descriptors
import Capsule.Proofs.Config.Pulling
import Capsule.Proofs.Preparation.Fetching
import Capsule.Proofs.Supervisor.Launch

/-!
# Launches that the configuration dooms

Some launches cannot succeed whatever the host and the bus are like: the configuration breaks a
rule, or it names no image. The rules are looked at before anything is done, the download included,
so a broken rule costs nothing. Whether an image is named is looked at where the image is looked
for, and that is behind the download. A valid configuration that names no image and asks for one to
be pulled is therefore pulled for, under the empty name, and fails when the transfer is over.

This file says that there is no other way for such a launch to do anything. It is read off the
stages (`Journey.launch_dooms`), and holds of a launch among others and of a preparation on a clock
alike, since both take the steps of a journey.

## What is left to the bus

A bus could itself answer a pull with a failure that looks like one of the configuration, and such
answers are excluded (`Bus.BlamesNoConfig`); the bus behind a client gives none. What any bus says
of an image is put into other words on its way.

## Main definitions

* `Error.BlamesConfig`: the failures for which the configuration alone is to blame
* `Config.Dooms`: how a launch fails with one of them, and the calls that it has made
* `Config.PullsInVain`: an image is pulled, and none is named

## Main results

* `Journey.launch_dooms`: a launch fails in no other way
* `Config.doomed_without_effects`: a launch that is doomed does nothing, unless it pulls in vain
-/

namespace Capsule

/-- A failure for which the configuration alone is to blame. -/
inductive Error.BlamesConfig : Error → Prop
  | invalid (v : Violation) : BlamesConfig (.invalid v)
  | noImage : BlamesConfig .noImage

/-- How a launch fails for which the configuration is to blame, and the calls that it makes. -/
inductive Config.Dooms (settings : Settings) (c : Config) : Error → List Call → Prop
  | invalid {e : Error} (broken : c.validate = .error e) : Dooms settings c e []
  | noImage (valid : c.validate = .ok ()) (unnamed : c.image = "")
      (nothing : Preparation.download? settings c = none) : Dooms settings c .noImage []
  /-- An image is pulled under the empty name, before it is noticed that none is named. -/
  | pulled {d : Download} {request : PullRequest} (valid : c.validate = .ok ())
      (unnamed : c.image = "") (asked : Preparation.download? settings c = some d)
      (is_request : d.request "" = .ok request) (lists : Nat) :
      Dooms settings c .noImage (.pull request :: List.replicate lists .listTransfers)

/-- What the bus says of an image is never blamed on the configuration. -/
theorem Image.not_blamesConfig {reference : String} {outcome : Except Error PropertyBag} {e : Error}
    (h : ofAnswer reference outcome = .error e) : ¬ e.BlamesConfig := by
  cases outcome with
  | error e' =>
    cases h
    exact nofun
  | ok bag =>
    cases hbag : ImageDescriptor.ofBag bag with
    | ok image =>
      simp only [ofAnswer, hbag, Except.map] at h
      cases h
    | error e' =>
      obtain ⟨-, want, -, -, -, -, rfl⟩ := ImageDescriptor.ofBag_eq_error_iff.mp hbag
      simp only [ofAnswer, hbag, Except.map] at h
      cases h
      exact nofun

namespace Journey

variable {x y : Point} {config : Config} {e : Error}

/-- A watch does not fail, but may be in vain. -/
theorem watchFor_eq_error {n : Nat} {w : Watch} {halt : Halt}
    (h : watchFor n w x = .error halt y) : halt = .waiting := by
  induction n generalizing w x with
  | zero =>
    cases h
    rfl
  | succ n ih =>
    rcases bind_eq_error.mp h with htick | ⟨⟨time, _⟩, z, -, h⟩
    · exact await_eq_error htick
    · dsimp only at h
      rw [act_bind] at h
      rcases bind_eq_error.mp h with hlist | ⟨⟨_, outcome⟩, z, -, h⟩
      · exact await_eq_error hlist
      · dsimp only at h
        cases hjudge : Watch.judge w.id outcome with
        | «over» =>
          rw [hjudge] at h
          cases h
        | active progress =>
          rw [hjudge] at h
          exact ih h

/-- A fetch fails only with what the bus has answered to the pull. -/
theorem fetch_eq_failed {request : PullRequest} (h : fetch request x = .error (.failed e) y) :
    ∃ m ∈ x.ahead, m.arrival = .pulled (.error e) := by
  rw [fetch, act_bind] at h
  rcases bind_eq_error.mp h with hwait | ⟨⟨time, outcome⟩, z, hwait, h⟩
  · cases await_eq_error hwait
  · obtain ⟨m, hm, harrival⟩ := exists_meeting_of_await hwait
    rcases bind_eq_error.mp h with hrefused | ⟨started, z, -, hwatch⟩
    · obtain ⟨e', rfl, he, -⟩ := ofExcept_eq_error.mp hrefused
      cases he
      exact ⟨m, hm, Arrival.eq_pulled _ _ harrival⟩
    · cases watchFor_eq_error hwatch

/-- A download that keeps its rules fails only with what the bus has answered to the pull. -/
theorem download_eq_failed
    (hholds : ∀ d, config.download = some d → ∀ k ∈ Config.downloadChecks d, k.holds)
    (h : download config x = .error (.failed e) y) :
    ∃ m ∈ x.ahead, m.arrival = .pulled (.error e) := by
  rw [download, settings_bind] at h
  cases hd : Preparation.download? x.scene.surroundings.settings config with
  | none =>
    rw [hd] at h
    cases h
  | some d =>
    have hconfig : config.download = some d := (Option.ite_none_right_eq_some.mp hd).2
    obtain ⟨request, hrequest⟩ : ∃ r, d.request config.image = .ok r :=
      Download.exists_request_iff.mpr (hholds d hconfig)
    rw [hd] at h
    dsimp only at h
    rw [hrequest] at h
    exact fetch_eq_failed h

/-- A download that is done has made the calls that were asked for. -/
theorem download_eq_ok {u : Unit} (h : download config x = .ok u y) :
    let settings := x.scene.surroundings.settings
    ∃ e calls, y.effects = x.effects ++ e ∧ e.IsTalk calls ∧
      (Preparation.download? settings config = none ∧ calls = [] ∨ ∃ d request lists,
        Preparation.download? settings config = some d ∧ d.request config.image = .ok request ∧
        calls = .pull request :: List.replicate lists .listTransfers) := by
  intro settings
  rw [download, settings_bind] at h
  cases hd : Preparation.download? x.scene.surroundings.settings config with
  | none =>
    rw [hd] at h
    cases h
    exact ⟨{}, [], (Effects.append_empty _).symm, .empty, .inl ⟨rfl, rfl⟩⟩
  | some d =>
    rw [hd] at h
    obtain ⟨request, _, hread, hfetch⟩ := bind_eq_ok.mp h
    obtain ⟨hrequest, rfl⟩ := ofExcept_eq_ok.mp hread
    obtain ⟨e, ⟨lists, he⟩, heffects⟩ := adds_fetch request x
    rw [hfetch] at heffects
    exact ⟨e, _, heffects, he, .inr ⟨d, request, lists, rfl, hrequest, rfl⟩⟩

/-- Only that no image is named is blamed on the configuration where the image is looked for. -/
theorem find_eq_failed (he : e.BlamesConfig) (h : find config x = .error (.failed e) y) :
    config.image = "" ∧ e = .noImage ∧ y = x := by
  rw [find] at h
  split at h
  · rename_i himage
    cases h
    exact ⟨String.isEmpty_iff.mp himage, rfl, rfl⟩
  · rw [host_bind] at h
    rcases bind_eq_error.mp h with hlook | ⟨there, z, -, h⟩
    · obtain ⟨e', hdisk, heq, -⟩ := ofExcept_eq_error.mp hlook
      cases heq
      obtain ⟨problem, -, rfl⟩ := Image.onDisk_eq_error_iff.mp hdisk
      cases he
    · cases there with
      | some path => cases h
      | none =>
        dsimp only at h
        rw [act_bind] at h
        rcases bind_eq_error.mp h with hwait | ⟨⟨_, outcome⟩, z, -, h⟩
        · cases await_eq_error hwait
        · obtain ⟨e', hanswer, heq, -⟩ := ofExcept_eq_error.mp h
          cases heq
          exact absurd he (Image.not_blamesConfig hanswer)

theorem image_of_find {path : String} (h : find config x = .ok path y) : config.image ≠ "" := by
  intro himage
  rw [find, if_pos (by simp [himage])] at h
  cases h

theorem render_eq_failed {path : String} (himage : config.image ≠ "")
    (h : render { config with imagePath := some path } x = .error (.failed e) y) :
    ∃ problem, e = .file path problem := by
  rw [render, host_bind] at h
  obtain ⟨e', harguments, heq, -⟩ := ofExcept_eq_error.mp h
  cases heq
  have hat : Config.argumentsAt { config with imagePath := some path }
      x.scene.surroundings.host path = .error e := harguments
  rw [Config.argumentsAt, if_neg (by simpa using himage)] at hat
  split at hat
  · cases hat
    exact ⟨_, rfl⟩
  · cases hat

theorem download?_withMachine (settings : Settings) (id : TaskId) (name : String) :
    Preparation.download? settings (Preparation.withMachine config id name) =
      Preparation.download? settings config := by
  rw [Preparation.download?, Preparation.download_withMachine]
  rfl

/-- The stages before the start, in their order: the rules, the download, the image, the arguments. -/
theorem prepare_dooms {id : TaskId} {name : String} (he : e.BlamesConfig)
    (hbus : ∀ m ∈ x.ahead, ∀ e, m.arrival = .pulled (.error e) → ¬ e.BlamesConfig)
    (h : prepare id name config x = .error (.failed e) y) :
    ∃ added calls, y.effects = x.effects ++ added ∧ added.IsTalk calls ∧
      config.Dooms x.scene.surroundings.settings e calls := by
  rcases bind_eq_error.mp h with hvalidate | ⟨u, z, hvalidate, hrest⟩
  · obtain ⟨e', hbroken, heq, rfl⟩ := ofExcept_eq_error.mp hvalidate
    cases heq
    exact ⟨{}, [], (Effects.append_empty _).symm, .empty, .invalid hbroken⟩
  obtain ⟨hvalid, rfl⟩ := ofExcept_eq_ok.mp hvalidate
  rcases bind_eq_error.mp hrest with hdownload | ⟨_, z, hdownload, hrest⟩
  · have hholds : ∀ d, (Preparation.withMachine config id name).download = some d →
        ∀ k ∈ Config.downloadChecks d, k.holds := fun d hd =>
      Config.holds_of_validate ((Preparation.download_withMachine id name).symm.trans hd) hvalid
    obtain ⟨m, hm, harrival⟩ := download_eq_failed hholds hdownload
    exact absurd he (hbus m hm e harrival)
  obtain ⟨added, calls, heffects, htalk, hcalls⟩ := download_eq_ok hdownload
  rw [download?_withMachine, Preparation.image_withMachine] at hcalls
  rcases bind_eq_error.mp hrest with hresolve | ⟨found, z', hresolve, hrest⟩
  · rcases bind_eq_error.mp hresolve with hfind | ⟨_, _, -, hdone⟩
    · obtain ⟨himage, rfl, rfl⟩ := find_eq_failed he hfind
      rw [Preparation.image_withMachine] at himage
      refine ⟨added, calls, heffects, htalk, ?_⟩
      rcases hcalls with ⟨hnothing, rfl⟩ | ⟨d, request, lists, hasked, hrequest, rfl⟩
      · exact .noImage hvalid himage hnothing
      · exact .pulled hvalid himage hasked (himage ▸ hrequest) lists
    · cases hdone
  · obtain ⟨path, _, hfind, hdone⟩ := bind_eq_ok.mp hresolve
    cases hdone
    rcases bind_eq_error.mp hrest with hrender | ⟨_, _, -, hdone⟩
    · obtain ⟨problem, rfl⟩ := render_eq_failed (image_of_find hfind) hrender
      cases he
    · cases hdone

/-- **A launch fails in no other way with what is blamed on the configuration**, unless the bus
itself answers a pull with it. -/
theorem launch_dooms {id : TaskId} {name : String} (he : e.BlamesConfig)
    (hbus : ∀ m ∈ x.ahead, ∀ e, m.arrival = .pulled (.error e) → ¬ e.BlamesConfig)
    (h : launch id name config x = .error (.failed e) y) :
    ∃ added calls, y.effects = x.effects ++ added ∧ added.IsTalk calls ∧
      config.Dooms x.scene.surroundings.settings e calls := by
  rcases bind_eq_error.mp h with hprepare | ⟨_, z, -, hrest⟩
  · exact prepare_dooms he hbus hprepare
  · rcases bind_eq_error.mp hrest with hstart | ⟨_, _, -, hdone⟩
    · obtain ⟨⟨failure, heq⟩, -⟩ := start_eq_error hstart
      cases heq
      cases he
    · cases hdone

end Journey

/-! ### On a clock -/

/-- What has been done in a log, one after the other. -/
def Log.effects (log : Log) : Effects := log.foldr (fun t e => t.2 ++ e) {}

theorem Log.calls_effects (log : Log) : log.effects.calls = log.calls := by
  induction log with
  | nil => rfl
  | cons t log ih =>
    show t.2.calls ++ (Log.effects log).calls = t.2.calls ++ Log.calls log
    rw [ih]

variable {σ : Type} {bus : Bus σ}

/-- A bus that would not answer a pull now with a failure for which the configuration is to
blame. -/
def Bus.BlamesNoConfig (bus : Bus σ) (s : σ) : Prop :=
  ∀ request delay e, (bus.pull request s).1 = .after delay (.error e) → ¬ e.BlamesConfig

/-- What goes wrong in a call of the client is put into words of its own. -/
theorem Method.not_blamesConfig {binary : String} {m : Method} {r : ClientRun} {e : Error}
    (h : m.reply binary r = .error e) : ¬ e.BlamesConfig := by
  cases r with
  | notStarted problem =>
    cases h
    exact nofun
  | finished succeeded output errors =>
    cases succeeded with
    | false =>
      cases h
      exact nofun
    | true =>
      have hjson : (Json.ofBytes output).mapError Error.json = .error e := h
      cases hread : Json.ofBytes output with
      | ok j =>
        rw [hread] at hjson
        cases hjson
      | error problem =>
        rw [hread] at hjson
        cases hjson
        exact nofun

theorem Reply.started_not_blamesConfig {reply : Json} {e : Error}
    (h : Reply.started reply = .error e) : ¬ e.BlamesConfig := by
  rw [Reply.started] at h
  split at h
  · cases h
  · cases h
    exact nofun

/-- The bus behind a client is always such a bus. -/
theorem Client.bus_blamesNoConfig (binary : String)
    (client : List String → σ → ClientRun × σ) (s : σ) :
    (Client.bus binary client).BlamesNoConfig s := by
  intro request delay e h
  obtain ⟨r, s', hrun⟩ : ∃ r s', client (Method.pull request).arguments s = (r, s') := ⟨_, _, rfl⟩
  have hanswer : 0 = delay ∧
      ((Method.pull request).reply binary r).bind Reply.started = .error e := by
    simpa [Client.bus, Dialogue.pull, Dialogue.single, Dialogue.answer, Dialogue.run, hrun] using h
  have hread := hanswer.2
  cases hreply : (Method.pull request).reply binary r with
  | error e' =>
    rw [hreply] at hread
    cases hread
    exact Method.not_blamesConfig hreply
  | ok reply =>
    rw [hreply] at hread
    exact Reply.started_not_blamesConfig hread

namespace Preparation

variable {host : Host} {settings : Settings} {config : Config} {id : TaskId} {name : String}
  {e : Error}

/-- Whether a status waits for a pull. -/
def Status.isPulling : Status → Bool
  | .waiting ⟨_, .pulling _⟩ => true
  | _ => false

theorem isPulling_settle (host : Host) (config : Config) (path : String) :
    (settle host config path).status.isPulling = false := by
  have harguments : Config.arguments { config with imagePath := some path } host =
      config.argumentsAt host path := rfl
  rw [settle, harguments]
  cases config.argumentsAt host path with
  | ok arguments => rfl
  | error e => rfl

theorem isPulling_locate (host : Host) (config : Config) :
    (locate host config).status.isPulling = false := by
  rw [locate]
  split
  · rfl
  · rcases Image.onDisk host config.image with e | _ | path
    · rfl
    · rfl
    · exact isPulling_settle host config path

/-- Nothing is pulled behind what arrives. -/
theorem isPulling_resume {p : Preparation} {s : σ} {arrival : Arrival}
    (h : Answers bus s p arrival) (host : Host) (now : Nat) :
    (p.resume host now arrival).status.isPulling = false := by
  cases h with
  | @pulled c request delay outcome given =>
    cases outcome with
    | error e => rfl
    | ok started => rfl
  | tick c watch => rfl
  | @listed c watch delay outcome given =>
    simp only [resume]
    cases Watch.judge watch.id outcome with
    | «over» => exact isPulling_locate host c
    | active progress => rfl
  | @described c delay outcome given =>
    simp only [resume]
    cases Image.ofAnswer c.image outcome with
    | ok path => exact isPulling_settle host c path
    | error e => rfl

/-- A preparation that fails on a clock is a journey that fails, for what arrived on the way. The
bus is asked to pull before all else, if at all. -/
theorem exists_pursue_of_follow {n now time : Nat} {a : Advance} {first s s' : σ} {log : Log}
    {scene : Scene} (hscene : scene.surroundings.host = host) (before : Effects)
    (hfirst : a.status.isPulling = true → s = first)
    (h : follow bus host n now a s = (log, .failed e, time, s')) :
    ∃ ahead y, (∀ m ∈ ahead, ∀ outcome, m.arrival = .pulled outcome →
        ∃ request delay, (bus.pull request first).1 = .after delay outcome) ∧
      Journey.pursue id a ⟨scene, ahead, before⟩ = .error (.failed e) y ∧
      y.effects = before ++ log.effects := by
  induction n generalizing now a s log before with
  | zero => cases h
  | succ n ih =>
    rw [follow] at h
    cases hstatus : a.status with
    | ready c arguments =>
      rw [hstatus] at h
      cases h
    | failed e' =>
      rw [hstatus] at h
      cases h
      refine ⟨[], ⟨scene, [], before ++ Journey.effectsOf a⟩, by simp, ?_, ?_⟩
      · rw [Journey.pursue, hstatus, Journey.lead_failed]
        rfl
      · rw [Log.effects, List.foldr_cons, List.foldr_nil, Effects.append_empty]
        rfl
    | waiting p =>
      rw [hstatus] at h hfirst
      dsimp only at h
      split at h
      · cases h
      · rename_i due s'' hnext
        have hanswers := answers_of_next hnext
        obtain ⟨rfl, hrest⟩ := Prod.mk.inj h
        obtain ⟨ahead, y, hahead, hy, heffects⟩ := ih (before ++ Journey.effectsOf a)
          (fun hpulling => absurd hpulling (by simp [isPulling_resume hanswers]))
          (Prod.ext rfl hrest)
        refine ⟨⟨due.time, due.arrival, scene⟩ :: ahead, y, ?_, ?_, ?_⟩
        · intro m hm outcome harrival
          rcases List.mem_cons.mp hm with rfl | hm
          · rw [show due.arrival = .pulled outcome from harrival] at hanswers
            cases hanswers with
            | @pulled c request delay _ given =>
              obtain rfl := hfirst rfl
              exact ⟨request, delay, given⟩
          · exact hahead m hm outcome harrival
        · rw [Journey.pursue, hstatus, Journey.act_bind, Journey.lead_waiting_cons]
          rw [hscene]
          exact hy
        · rw [heffects, Effects.append_assoc]
          rfl

/-- **A preparation fails in no other way** with what is blamed on the configuration. -/
theorem run_dooms {now steps time : Nat} {s s' : σ} {log : Log} (hbus : bus.BlamesNoConfig s)
    (he : e.BlamesConfig)
    (h : run bus settings host config id name now steps s = (log, .failed e, time, s')) :
    log.effects.IsTalk log.calls ∧ config.Dooms settings e log.calls := by
  let scene : Scene := ⟨⟨settings, host, fun _ _ => .error .alreadyReaped⟩, 0⟩
  have hhost : scene.surroundings.host = host := rfl
  obtain ⟨ahead, y, hahead, hy, hlog⟩ := exists_pursue_of_follow hhost {} (fun _ => rfl) h
  have hlaunch : Journey.launch id name config ⟨scene, ahead, {}⟩ = .error (.failed e) y :=
    (Journey.pursue_start name ⟨scene, ahead, {}⟩).symm.trans hy
  have hmeets : ∀ m ∈ ahead, ∀ e, m.arrival = .pulled (.error e) → ¬ e.BlamesConfig := by
    intro m hm e' harrival
    obtain ⟨request, delay, hgiven⟩ := hahead m hm _ harrival
    exact hbus request delay e' hgiven
  obtain ⟨added, calls, hadded, htalk, hdooms⟩ := Journey.launch_dooms he hmeets hlaunch
  obtain rfl : log.effects = added := by
    rw [← log.effects.empty_append, ← hlog, hadded, added.empty_append]
  obtain rfl : log.calls = calls := by rw [← log.calls_effects, htalk.calls_eq]
  exact ⟨htalk, hdooms⟩

end Preparation

/-! ### Among others -/

namespace Supervisor

/-- A launch of which a step fails comes to that failure. -/
theorem exists_of_goesBy {ticket : Nat} {id : TaskId} {name : String} {h : History}
    {r : EStateM.Result Journey.Halt Journey.Point Arrived} {t : Taken} {e : Error}
    (hgoes : GoesBy ticket id name h r) (ht : t ∈ h) (hnext : t.output = (next t.before t.input).2)
    (hfails : t.output.2 = .failed e) : ∃ y, r = .error (.failed e) y := by
  obtain ⟨waits, hwaits, hlast⟩ := hgoes
  have hnot : t ∉ waits := fun hin => by
    cases hfails.symm.trans (hwaits t hin).outcome_eq
  rcases hlast with ⟨rfl, -⟩ | ⟨last, rfl, hends⟩
  · exact absurd ht hnot
  obtain rfl : t = last := by simpa [hnot] using ht
  match r, hends with
  | .ok a y, hends => cases hfails.symm.trans hends.2.outcome_eq
  | .error (.failed e') y, hends =>
    cases hfails.symm.trans hends.1
    exact ⟨y, rfl⟩
  | .error .waiting y, hends =>
    -- A launch that is given up is told nothing.
    have habandoned : (next t.before t.input).2.2 = .nothing := by
      obtain ⟨before, ⟨w, now, event⟩, output⟩ := t
      obtain rfl : event = .abandon ticket := hends.1
      rfl
    rw [hnext, habandoned] at hfails
    cases hfails

/-- **A launch among others fails in no other way** with what is blamed on the configuration. -/
theorem launch_dooms_of_mem {s : Supervisor} (ho : Orderly s.inFlight s) {w : Surroundings}
    {now : Moment} {id : TaskId} {name : String} {config : Config} (hid : s.isTaken id = false)
    {os : List Occurrence} {t : Taken} {e : Error} (he : e.BlamesConfig) :
    let h := ofLaunch s.begun (Course.steps next s (⟨w, now, .start id name config⟩ :: os))
    (∀ m ∈ meetings h, ∀ e, m.arrival = .pulled (.error e) → ¬ e.BlamesConfig) → t ∈ h →
      t.output.2 = .failed e →
      (effects h).IsTalk (effects h).calls ∧ config.Dooms w.settings e (effects h).calls := by
  intro h hmeets ht hfails
  obtain ⟨hgoes, heffects⟩ := follows_start ho w now name config hid os
  have hnext := Course.output_eq_of_mem_steps next (List.mem_of_mem_filter ht)
  obtain ⟨y, hy⟩ := exists_of_goesBy hgoes ht hnext hfails
  obtain ⟨added, calls, hadded, htalk, hdooms⟩ := Journey.launch_dooms he hmeets hy
  obtain rfl : effects h = added := by
    rw [hy] at heffects
    rw [← (effects h).empty_append, ← added.empty_append]
    exact heffects.symm.trans hadded
  obtain rfl : (effects h).calls = calls := htalk.calls_eq
  exact ⟨htalk, hdooms⟩

end Supervisor

namespace Config

variable {settings : Settings} {c : Config} {e : Error} {calls : List Call}

/-- An image is to be pulled for a configuration that keeps the rules and names none. -/
def PullsInVain (settings : Settings) (c : Config) : Prop :=
  c.validate = .ok () ∧ c.image = "" ∧ Preparation.download? settings c ≠ none

/-- Such a configuration is the only one that is doomed and still leads to calls. -/
theorem Dooms.calls_eq_nil_iff (h : c.Dooms settings e calls) :
    calls = [] ↔ ¬ c.PullsInVain settings := by
  cases h with
  | invalid broken => simp [PullsInVain, broken]
  | noImage valid unnamed nothing => simp [PullsInVain, nothing]
  | pulled valid unnamed asked is_request lists => simp [PullsInVain, valid, unnamed, asked]

/-- **A launch that is doomed does nothing**, unless it pulls for no image: on a clock or among
others, a launch that fails because of the configuration has started nothing, and has made no call
but those of a pull under the empty name. -/
theorem doomed_without_effects (config : Config) (id : TaskId) (name : String) {e : Error}
    (he : e.BlamesConfig) :
    (∀ {σ : Type} (bus : Bus σ) (settings : Settings) (host : Host) (now steps time : Nat)
        (s s' : σ) (log : Log), bus.BlamesNoConfig s →
      Preparation.run bus settings host config id name now steps s = (log, .failed e, time, s') →
      log.effects.IsTalk log.calls ∧ config.Dooms settings e log.calls ∧
        (log.calls = [] ↔ ¬ config.PullsInVain settings)) ∧
    ∀ (os more : List Occurrence) (w : Surroundings) (now : Moment),
      let s := Supervisor.after os
      let start : Occurrence := ⟨w, now, .start id name config⟩
      let h := Supervisor.ofLaunch s.begun (Course.steps Supervisor.next s (start :: more))
      let effects := Supervisor.effects h
      s.isTaken id = false →
      (∀ m ∈ Supervisor.meetings h, ∀ e, m.arrival = .pulled (.error e) → ¬ e.BlamesConfig) →
      (∃ t ∈ h, t.output.2 = .failed e) →
      effects.IsTalk effects.calls ∧ config.Dooms w.settings e effects.calls ∧
        (effects.calls = [] ↔ ¬ config.PullsInVain w.settings) := by
  constructor
  · intro σ bus settings host now steps time s s' log hbus h
    obtain ⟨htalk, hdooms⟩ := Preparation.run_dooms hbus he h
    exact ⟨htalk, hdooms, hdooms.calls_eq_nil_iff⟩
  · rintro os more w now s start h effects hid hmeets ⟨t, ht, hfails⟩
    have ho : Supervisor.Orderly s.inFlight s := Supervisor.orderly_after os
    obtain ⟨htalk, hdooms⟩ := Supervisor.launch_dooms_of_mem ho hid he hmeets ht hfails
    exact ⟨htalk, hdooms, hdooms.calls_eq_nil_iff⟩

/-- A host on which there is nothing. -/
def bareHost : Host where
  files := .empty
  directory := []
  directoryPath := .ok "/"

/-- A configuration that asks for an image and names none. -/
def unnamedPull : Config where
  download := some ⟨"https://example.com/debian.tar.xz", "tar", false, "no"⟩

/-- It is doomed, on a clock and as the first launch of a supervisor, and leads to calls. -/
theorem unnamedPull_doomed :
    let w : Surroundings := ⟨{}, bareHost, fun _ _ => .error .alreadyReaped⟩
    let resumed : List Occurrence := [(0, .pulled (.ok ⟨7, ""⟩)), (2000, .tick),
      (2000, .listed (.ok []))].map fun r => ⟨w, default, .resume 0 r.1 r.2⟩
    let p := Preparation.run Script.bus {} bareHost unnamedPull "t" "n" 0 10 {}
    let h := Supervisor.ofLaunch 0 (Course.steps Supervisor.next (Supervisor.after [])
      (⟨w, default, .start "t" "n" unnamedPull⟩ :: resumed))
    unnamedPull.Dooms {} .noImage p.1.calls ∧ p.1.calls ≠ [] ∧
      unnamedPull.Dooms {} .noImage (Supervisor.effects h).calls ∧
      (Supervisor.effects h).calls ≠ [] := by
  intro w resumed p h
  obtain ⟨hclock, hothers⟩ := doomed_without_effects unnamedPull "t" "n" .noImage
  have hvain : unnamedPull.PullsInVain {} := ⟨rfl, rfl, Option.some_ne_none _⟩
  have hbus : Script.bus.BlamesNoConfig {} := by
    intro request delay e h
    cases h
  have hfails : Preparation.run Script.bus {} bareHost unnamedPull "t" "n" 0 10 {} =
      (p.1, .failed .noImage, 2000, {}) := rfl
  have hmeets : ∀ m ∈ Supervisor.meetings h, ∀ e, m.arrival = .pulled (.error e) →
      ¬ e.BlamesConfig := by
    intro m hm e harrival
    obtain ⟨t, ht, hmeeting⟩ := List.mem_filterMap.mp hm
    have hin := Course.input_mem_of_mem_steps _ (List.mem_of_mem_filter ht)
    obtain ⟨before, input, output⟩ := t
    simp only [resumed, List.map_cons, List.map_nil, List.mem_cons, List.not_mem_nil,
      or_false] at hin
    rcases hin with rfl | rfl | rfl | rfl <;> cases hmeeting <;> cases harrival
  have hends : ∃ t ∈ h, t.output.2 = .failed .noImage :=
    ⟨_, List.mem_of_getElem? (i := 3) rfl, rfl⟩
  obtain ⟨-, hdooms, hcalls⟩ := hclock Script.bus {} bareHost 0 10 2000 {} {} p.1 hbus hfails
  obtain ⟨-, hdooms', hcalls'⟩ := hothers [] resumed w default rfl hmeets hends
  exact ⟨hdooms, fun h => hcalls.mp h hvain, hdooms', fun h => hcalls'.mp h hvain⟩

/-- Its preparation fails as it was bound to, with two calls behind it: that a launch is doomed by
its configuration alone does not keep it from doing something. -/
theorem calls_unnamedPull :
    let p := Preparation.run Script.bus {} bareHost unnamedPull "t" "n" 0 10 {}
    p.2.1 = .failed .noImage ∧ p.1.calls =
      [.pull ⟨"https://example.com/debian.tar.xz", "", .no, .tar, false⟩, .listTransfers] := by
  intro p
  exact ⟨rfl, rfl⟩

end Config

end Capsule
