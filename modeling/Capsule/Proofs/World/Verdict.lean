import Capsule.Proofs.Preparation.Ending
import Capsule.Proofs.Supervisor.Ledger

/-!
# What comes of a run

A run succeeds if its process ended on its own with the code zero, and in no other way. Between the
process and the end of the command stand the task, which is told by its monitor, the removal of the
task, and a default for a task that has no outcome, which would pass for success:
`World.run_succeeds_iff` says that what the wait has given comes through, and that neither the
default nor a refused removal is met with.

## The order of things

A run looks at its task from time to time, and removes it when it finds it ended; the monitor works
beside it. `World.conclude` puts this in one order. What is proved here of the removal holds for
every order: whatever has happened to the task, if all that waiting for the process could give is
what it gives, and if the task is not running any more, it is removed with that outcome.

## Main definitions

* `Conclusion.ofWait`, `ExitResult.ofWait`: what a wait comes to
* `World.Refused`, `World.Launched`: how a run goes until its process is started

## Main results

* `Task.result_of_ended`: what a task shows that has ended
* `Supervisor.removed_of_ended`: how it is removed
* `World.run_succeeds_iff`: what comes of a run
-/

namespace Capsule

/-- The command has come to an end. -/
def Conclusion.Ends : Conclusion → Prop
  | .unfinished => False
  | .aborted => False
  | _ => True

/-- The end of a run, given what came of waiting for its process. -/
def Conclusion.ofWait (id : TaskId) : Except Error WaitStatus → Conclusion
  | .ok (.exited code) => if code = 0 then .succeeded else .unclean id
  | .ok (.killed _) => .unclean id
  | .error _ => .unclean id

theorem Conclusion.ends_ofWait (id : TaskId) (given : Except Error WaitStatus) :
    (ofWait id given).Ends := by
  rcases given with e | code | signal
  · trivial
  · rw [ofWait]
    split <;> trivial
  · trivial

theorem Conclusion.ofWait_eq_succeeded_iff {id : TaskId} {given : Except Error WaitStatus} :
    ofWait id given = .succeeded ↔ given = .ok (.exited 0) := by
  rcases given with e | code | signal
  · simp [ofWait]
  · rw [ofWait]
    split <;> simp_all
  · simp [ofWait]

namespace ExitResult

/-- What is recorded of a process, given what came of waiting for it. -/
def ofWait : Except Error WaitStatus → ExitResult
  | .ok (.exited code) => { code := code.toNat }
  | .ok (.killed signal) => { code := -1, signal := signal.toNat }
  | .error e => { error := some e.message }

theorem isSuccess_ofWait (id : TaskId) (given : Except Error WaitStatus) :
    (if (ofWait given).isSuccess then Conclusion.succeeded else .unclean id) =
      .ofWait id given := by
  rcases given with e | code | signal
  · rfl
  · have hcode : code.toNat = 0 ↔ code = 0 := by
      rw [← UInt8.toNat_inj]
      rfl
    simp [ofWait, isSuccess, Conclusion.ofWait, hcode]
  · simp [ofWait, isSuccess, Conclusion.ofWait]

end ExitResult

theorem Lifecycle.result_ofWait (now time : Moment) (given : Except Error WaitStatus) :
    (Lifecycle.ofWait now (given.map (·.exit time))).result = some (.ofWait given) := by
  rcases given with e | code | signal <;> rfl

/-! ### The task -/

namespace Task

/-- What a wait has given was brought by the end of a wait. -/
theorem exists_finish_of_mem_outcomes {t : Task} {is : List (Moment × Event)}
    {o : Except Error Exit} (h : o ∈ outcomes (Course.steps next t is)) :
    ∃ now, (now, .finish o) ∈ is := by
  obtain ⟨r, hr, ho⟩ := List.mem_filterMap.mp h
  have hinput := Course.input_mem_of_mem_steps next hr
  obtain ⟨before, ⟨now, e⟩, output⟩ := r
  cases e with
  | finish o' =>
    simp only [Option.ite_none_right_eq_some] at ho
    cases ho.2
    exact ⟨now, hinput⟩
  | _ => cases ho

/-- **What a task shows that has ended**, if all that can be learned of its process is one thing:
that very thing. -/
theorem result_of_ended (origin : Nat) (id : TaskId) (name machine : String) (process : Child)
    (startedAt : Moment) {is : List (Moment × Event)} {given : Except Error WaitStatus}
    (hgiven : ∀ now o, (now, .finish o) ∈ is → ∃ time, o = given.map (·.exit time)) :
    let t := Course.final next (ofStart origin id name machine process startedAt) is
    t.isRunning = false → t.status.result = some (.ofWait given) := by
  intro t hended
  have ha := accounts_final origin id name machine process startedAt is
  rcases ha.ended with ⟨-, -, hlife⟩ | ⟨now, o, ho, -, -, hlife⟩
  · rw [isRunning, hlife] at hended
    cases hended
  · obtain ⟨at', hmem⟩ := exists_finish_of_mem_outcomes (ho ▸ List.mem_singleton_self o)
    obtain ⟨time, rfl⟩ := hgiven at' o hmem
    rw [status, hlife]
    exact Lifecycle.result_ofWait now time given

/-- A monitor that begins and learns what became of the process ends its task. -/
theorem isRunning_of_monitored (origin : Nat) (id : TaskId) (name machine : String)
    (process : Child) (startedAt now : Moment) (o : Except Error Exit) :
    (Course.final next (ofStart origin id name machine process startedAt)
      [(now, .monitor), (now, .begin), (now, .finish o)]).isRunning = false := by
  cases o <;> rfl

end Task

/-! ### The supervisor -/

namespace Supervisor

/-- A supervisor whose only task goes through all this. -/
def meanwhile (w : Surroundings) (s : Supervisor) (is : List (Moment × Task.Event)) : Supervisor :=
  Course.final (fun (s : Supervisor) i => s.step w i.1 (.task 0 i.2)) s is

theorem meanwhile_eq (w : Surroundings) {s : Supervisor} {t : Task} (ht : s.tasks = [t])
    (is : List (Moment × Task.Event)) :
    s.meanwhile w is = { s with tasks := [Course.final Task.next t is] } := by
  induction is generalizing s t with
  | nil =>
    rw [meanwhile, Course.final, Course.final, ← ht]
  | cons i is ih =>
    have hstep : (s.step w i.1 (.task 0 i.2)).1 = { s with tasks := [(t.next i).1] } := by
      simp only [step, touch, ht]
      rfl
    rw [meanwhile, Course.final, hstep, ← meanwhile, ih rfl]
    rfl

/-- The supervisor behind a launch that nothing has gone before. -/
theorem launch_empty {w : Surroundings} {arguments : List String} {process : Child}
    (hstart : w.launcher 0 arguments = .ok process) (now : Moment) (id : TaskId) (name : String)
    (config : Config) :
    launch w now {} id name config arguments =
      ({ starts := 1
         tasks := [(Task.ofStart 0 id name config.machine process now).monitor.1]
         tracked := TextMap.insert .empty id 0 },
        { starts := [arguments], started := [⟨0, id, process⟩] }, .launched 0) := by
  rw [launch, hstart]
  rfl

/-- **A task is removed with what became of its process**, once it is not running any more. -/
theorem removed_of_ended {w : Surroundings} {now : Moment} {id : TaskId} {name : String}
    {config : Config} {arguments : List String} {process : Child}
    (hstart : w.launcher 0 arguments = .ok process) {is : List (Moment × Task.Event)}
    {given : Except Error WaitStatus}
    (hgiven : ∀ now o, (now, .finish o) ∈ is → ∃ time, o = given.map (·.exit time)) :
    let s := (launch w now {} id name config arguments).1.meanwhile w is
    (s.tasks[0]?).map Task.isRunning = some false → ∃ status,
      (s.step w now (.remove id)).2.2 = .removed status ∧ status.id = id ∧
        status.result = some (.ofWait given) := by
  intro s hended
  let born := Task.ofStart 0 id name config.machine process now
  let t := Course.final Task.next born ((now, .monitor) :: is)
  have hs : s = { starts := 1, tasks := [t], tracked := TextMap.insert .empty id 0 } := by
    simp only [s, launch_empty hstart]
    exact meanwhile_eq w rfl is
  rw [hs] at hended ⊢
  have ht : t.isRunning = false := Option.some.inj hended
  refine ⟨t.status, (remove_eq_removed_iff _ id t.status).mpr ⟨⟨0, t, ?_, rfl, rfl⟩, ?_⟩, ?_, ?_⟩
  · rw [TextMap.get?_insert, if_pos rfl]
  · rw [Task.isRunning_eq_not_isTerminal] at ht
    simpa using ht
  · exact congrArg Started.id (born.owned_final ((now, .monitor) :: is))
  · refine Task.result_of_ended 0 id name config.machine process now ?_ ht
    intro now' o hmem
    rcases List.mem_cons.mp hmem with h | hmem
    · cases h
    · exact hgiven now' o hmem

end Supervisor

/-! ### The run -/

/-- The lookup has come to an end. -/
def Lookup.Ends : Lookup → Prop
  | .silent => False
  | .unshowable => False
  | _ => True

namespace World

variable {σ : Type} {w : World σ} {settings : Settings} {file name : String} {id : TaskId} {s : σ}

/-- A run comes to an error before its process is started, in so many steps of the preparation: the
configuration is not loaded, or the preparation fails, or the process is not started. -/
inductive Refused (w : World σ) (settings : Settings) (file name : String) (id : TaskId) (s : σ)
    (steps : Nat) : Error → Prop
  | unread {e : Error} (load_eq : Config.load w.host file = .error e) :
      Refused w settings file name id s steps e
  | unprepared {config : Config} {now : Nat} {log : Log} {e : Error} {source : σ}
      (load_eq : Config.load w.host file = .ok config)
      (run_eq : Preparation.run w.bus settings w.host config id name w.uptime steps s =
        (log, .failed e, now, source)) :
      Refused w settings file name id s steps e
  | unstarted {config prepared : Config} {now : Nat} {log : Log} {arguments : List String}
      {failure : ProcessFailure} {source : σ} (load_eq : Config.load w.host file = .ok config)
      (run_eq : Preparation.run w.bus settings w.host config id name w.uptime steps s =
        (log, .ready prepared arguments, now, source))
      (start_eq : w.start settings.binary arguments = .error failure) :
      Refused w settings file name id s steps (.process failure)

/-- A run comes to a process. -/
structure Launched (w : World σ) (settings : Settings) (file name : String) (id : TaskId)
    (s : σ) where
  config : Config
  /-- The configuration, as it is used. -/
  prepared : Config
  arguments : List String
  steps : Nat
  log : Log
  /-- When the process is started. -/
  now : Nat
  /-- The bus, as the preparation has left it. -/
  source : σ
  process : Child
  load_eq : Config.load w.host file = .ok config
  run_eq : Preparation.run w.bus settings w.host config id name w.uptime steps s =
    (log, .ready prepared arguments, now, source)
  start_eq : w.start settings.binary arguments = .ok process

namespace Launched

variable (l : Launched w settings file name id s)

/-- What comes of waiting for the process. -/
def waited : Except Error WaitStatus := w.wait settings.binary l.arguments

/-- What comes of looking for the machine, if the run does. -/
def lookup : Lookup :=
  (Machine.describe w.bus l.source l.prepared.machine (1000 * settings.describeTimeout) l.now).2

/-- The supervisor behind the launch. -/
def supervisor : Supervisor :=
  (Supervisor.launch (surroundings w settings) w.now {} id name l.prepared l.arguments).1

end Launched

/-- How a run goes on with a configuration. -/
theorem conclusion_run {config : Config} (hload : Config.load w.host file = .ok config)
    (chosen : Option TaskId) (describe : Bool) :
    let id := chosen.getD w.freshId
    let r := Preparation.run w.bus settings w.host config id name w.uptime w.patience s
    (w.run settings file name chosen describe s).conclusion =
      match r.2.1 with
      | .failed e => .failed e
      | .ready prepared arguments =>
        (supervise w settings prepared arguments name id describe r.2.2.1 r.2.2.2).conclusion
      | _ => .unfinished := by
  intro id r
  obtain ⟨log, ended, now, source, hr⟩ : ∃ log ended now source, r = (log, ended, now, source) :=
    ⟨_, _, _, _, rfl⟩
  rw [hr]
  simp only [r, id] at hr
  rw [run, hload]
  simp only [hr]
  cases ended <;> rfl

theorem conclusion_supervise_of_error {prepared : Config} {arguments : List String}
    {failure : ProcessFailure} (h : w.start settings.binary arguments = .error failure)
    (describe : Bool) (now : Nat) (s : σ) :
    (supervise w settings prepared arguments name id describe now s).conclusion =
      .failed (.process failure) := by
  simp only [supervise, Supervisor.launch, surroundings, h]
  rfl

namespace Launched

variable (l : Launched w settings file name id s)

/-- **The removal of the task of a run** gives back what came of the process, in whatever order the
monitor and the run have gone on. -/
theorem removed (is : List (Moment × Task.Event))
    (his : ∀ now o, (now, .finish o) ∈ is → ∃ time, o = l.waited.map (·.exit time)) :
    let after := l.supervisor.meanwhile (surroundings w settings) is
    (after.tasks[0]?).map Task.isRunning = some false → ∃ status,
      (after.step (surroundings w settings) w.now (.remove id)).2.2 = .removed status ∧
        status.result = some (.ofWait l.waited) ∧
        (verdict (.removed status)).2 = .ofWait id l.waited := by
  intro after hended
  have hstart : (surroundings w settings).launcher 0 l.arguments = .ok l.process := l.start_eq
  obtain ⟨status, hremoved, hid, hresult⟩ := Supervisor.removed_of_ended hstart his hended
  refine ⟨status, hremoved, hresult, ?_⟩
  simp only [verdict, hresult, hid]
  exact ExitResult.isSuccess_ofWait id l.waited

/-- The order in which a run puts it: the monitor begins, it learns what became of the process, and
the task is removed. -/
theorem concluded :
    ∃ status, conclude (surroundings w settings) w.now l.supervisor 0 id
        (l.waited.map (·.exit w.now)) = .removed status ∧
      status.result = some (.ofWait l.waited) ∧
      (verdict (.removed status)).2 = .ofWait id l.waited := by
  let is : List (Moment × Task.Event) :=
    [(w.now, .begin), (w.now, .finish (l.waited.map (·.exit w.now)))]
  have hconclude : conclude (surroundings w settings) w.now l.supervisor 0 id
      (l.waited.map (·.exit w.now)) =
        ((l.supervisor.meanwhile (surroundings w settings) is).step (surroundings w settings) w.now
          (.remove id)).2.2 := rfl
  rw [hconclude]
  refine l.removed is ?_ ?_
  · intro now o hmem
    simp only [is, List.mem_cons, Prod.mk.injEq, reduceCtorEq, and_false, false_or,
      Task.Event.finish.injEq, List.not_mem_nil, or_false] at hmem
    exact ⟨w.now, hmem.2⟩
  · have hstart : (surroundings w settings).launcher 0 l.arguments = .ok l.process := l.start_eq
    rw [supervisor, Supervisor.launch_empty hstart, Supervisor.meanwhile_eq _ rfl]
    exact congrArg some (Task.isRunning_of_monitored 0 id name _ _ _ w.now _)

/-- What a lookup decides is whether the run gets to the end of its process. -/
theorem conclusion_supervise (describe : Bool) :
    (supervise w settings l.prepared l.arguments name id describe l.now l.source).conclusion =
      match describe, l.lookup with
      | true, .silent => .unfinished
      | true, .unshowable => .aborted
      | _, _ => .ofWait id l.waited := by
  obtain ⟨status, hconclude, -, hverdict⟩ := l.concluded
  have hstart : (surroundings w settings).launcher 0 l.arguments = .ok l.process := l.start_eq
  have hlaunch := Supervisor.launch_empty hstart w.now id name l.prepared
  rw [supervisor, hlaunch] at hconclude
  simp only [waited] at hconclude hverdict
  simp only [supervise, hlaunch, hconclude, hverdict, lookup]
  cases describe with
  | false => rfl
  | true =>
    generalize (Machine.describe _ _ _ _ _).2 = found
    cases found <;> rfl

end Launched

variable {chosen : Option TaskId} {describe : Bool}

/-- A run that comes to a process is followed to its start, or it is given up before that. -/
theorem Launched.conclusion_run (l : Launched w settings file name (chosen.getD w.freshId) s) :
    (∀ describe, (w.run settings file name chosen describe s).conclusion = .unfinished) ∨
      ∀ describe, (w.run settings file name chosen describe s).conclusion =
        (supervise w settings l.prepared l.arguments name (chosen.getD w.freshId) describe l.now
          l.source).conclusion := by
  by_cases hr : (Preparation.run w.bus settings w.host l.config (chosen.getD w.freshId) name
      w.uptime w.patience s).2.1 = .unfinished
  · refine .inl fun describe => ?_
    rw [World.conclusion_run l.load_eq, hr]
  · refine .inr fun describe => ?_
    have hready := l.run_eq
    have hl : (Preparation.run w.bus settings w.host l.config (chosen.getD w.freshId) name
        w.uptime l.steps s).2.1 ≠ .unfinished := by
      rw [hready]
      nofun
    rw [World.conclusion_run l.load_eq, Preparation.run_eq_of_ended hr hl, hready]

/-- Such a run comes to what the wait for the process gives, if it comes to an end. -/
theorem Launched.conclusion_eq (l : Launched w settings file name (chosen.getD w.freshId) s)
    (hends : (w.run settings file name chosen describe s).conclusion.Ends) :
    (w.run settings file name chosen describe s).conclusion =
      .ofWait (chosen.getD w.freshId) l.waited := by
  rcases l.conclusion_run with h | h
  · rw [h] at hends
    exact hends.elim
  · rw [h, l.conclusion_supervise] at hends ⊢
    split at hends
    · exact hends.elim
    · exact hends.elim
    · rfl

/-- Looking for the machine changes nothing, unless it never ends. -/
theorem Launched.conclusion_describe (l : Launched w settings file name (chosen.getD w.freshId) s)
    (hlookup : l.lookup.Ends) :
    (w.run settings file name chosen true s).conclusion =
      (w.run settings file name chosen false s).conclusion := by
  rcases l.conclusion_run with h | h
  · rw [h, h]
  · rw [h, h, l.conclusion_supervise, l.conclusion_supervise]
    cases hl : l.lookup with
    | silent => rw [hl] at hlookup; exact hlookup.elim
    | unshowable => rw [hl] at hlookup; exact hlookup.elim
    | found machine time => rfl
    | failed e time => rfl

/-- A run that ends has followed its preparation to the end. -/
theorem run_patience_of_ends {config : Config} {steps : Nat} {log : Log}
    {ended : Preparation.End} {now : Nat} {source : σ}
    (hload : Config.load w.host file = .ok config)
    (hrun : Preparation.run w.bus settings w.host config (chosen.getD w.freshId) name w.uptime
      steps s = (log, ended, now, source))
    (hended : ended ≠ .unfinished)
    (hends : (w.run settings file name chosen describe s).conclusion.Ends) :
    Preparation.run w.bus settings w.host config (chosen.getD w.freshId) name w.uptime
      w.patience s = (log, ended, now, source) := by
  rw [conclusion_run hload] at hends
  refine (Preparation.run_eq_of_ended (fun hr => ?_) (by rw [hrun]; exact hended)).trans hrun
  rw [hr] at hends
  exact hends

/-- A run that is followed far enough has followed its preparation to the end. -/
theorem run_patience_of_le {config : Config} {steps : Nat} {log : Log} {ended : Preparation.End}
    {now : Nat} {source : σ} (hle : steps ≤ w.patience)
    (hrun : Preparation.run w.bus settings w.host config id name w.uptime steps s =
      (log, ended, now, source))
    (hended : ended ≠ .unfinished) :
    Preparation.run w.bus settings w.host config id name w.uptime w.patience s =
      (log, ended, now, source) := by
  refine (Preparation.follow_of_le hle ?_).trans hrun
  show (Preparation.run w.bus settings w.host config id name w.uptime steps s).2.1 ≠ .unfinished
  rw [hrun]
  exact hended

/-- A run that comes to an error before its process is started ends with that error. -/
theorem Refused.conclusion_eq {steps : Nat} {e : Error}
    (h : Refused w settings file name (chosen.getD w.freshId) s steps e)
    (hends : (w.run settings file name chosen describe s).conclusion.Ends) :
    (w.run settings file name chosen describe s).conclusion = .failed e := by
  cases h with
  | unread hload =>
    rw [run, hload]
    rfl
  | unprepared hload hrun =>
    rw [conclusion_run hload, run_patience_of_ends hload hrun nofun hends]
  | unstarted hload hrun hstart =>
    rw [conclusion_run hload, run_patience_of_ends hload hrun nofun hends]
    exact conclusion_supervise_of_error hstart describe _ _

theorem Refused.ends {steps : Nat} {e : Error}
    (h : Refused w settings file name (chosen.getD w.freshId) s steps e)
    (hle : steps ≤ w.patience) (describe : Bool) :
    (w.run settings file name chosen describe s).conclusion.Ends := by
  cases h with
  | unread hload =>
    rw [run, hload]
    trivial
  | unprepared hload hrun =>
    rw [conclusion_run hload, run_patience_of_le hle hrun nofun]
    trivial
  | unstarted hload hrun hstart =>
    rw [conclusion_run hload, run_patience_of_le hle hrun nofun]
    simp only [conclusion_supervise_of_error hstart]
    trivial

theorem Launched.ends (l : Launched w settings file name (chosen.getD w.freshId) s)
    (hle : l.steps ≤ w.patience) :
    (w.run settings file name chosen false s).conclusion.Ends := by
  rw [World.conclusion_run l.load_eq, run_patience_of_le hle l.run_eq nofun]
  simp only [l.conclusion_supervise]
  exact Conclusion.ends_ofWait _ _

/-- A run that ends has come to an error or to a process. -/
theorem refused_or_launched
    (hends : (w.run settings file name chosen describe s).conclusion.Ends) :
    (∃ steps e, Refused w settings file name (chosen.getD w.freshId) s steps e) ∨
      Nonempty (Launched w settings file name (chosen.getD w.freshId) s) := by
  cases hload : Config.load w.host file with
  | error e => exact .inl ⟨0, e, .unread hload⟩
  | ok config =>
    rw [conclusion_run hload] at hends
    obtain ⟨log, ended, now, source, hrun⟩ : ∃ log ended now source,
        Preparation.run w.bus settings w.host config (chosen.getD w.freshId) name w.uptime
          w.patience s = (log, ended, now, source) := ⟨_, _, _, _, rfl⟩
    rw [hrun] at hends
    cases ended with
    | silent => exact hends.elim
    | unfinished => exact hends.elim
    | failed e => exact .inl ⟨_, e, .unprepared hload hrun⟩
    | ready prepared arguments =>
      cases hstart : w.start settings.binary arguments with
      | error failure => exact .inl ⟨_, _, .unstarted hload hrun hstart⟩
      | ok process =>
        exact .inr
          ⟨⟨config, prepared, arguments, _, log, now, source, process, hload, hrun, hstart⟩⟩

/-- **What comes of a run.** A run that ends succeeds if and only if it came to a process and the
wait for that gave that it ended on its own with the code zero; an error before the process is
started is the error of the run. A run ends if it is followed far enough, and if a lookup that it
makes does. Of a run that came to a process:

* if it ends, it ends as the wait says: a wait that failed, another code or a signal is an error;
* looking for the machine changes nothing, found or not, unless it never ends;
* whatever has happened to the task in the meantime, if nothing but what became of the process was
  learned from waiting for it, and if the task is not running any more, then it is removed, with the
  outcome that the wait has given;
* the removal of the run itself is one of those. -/
theorem run_succeeds_iff (w : World σ) (settings : Settings) (file name : String)
    (chosen : Option TaskId) (s : σ) :
    let id := chosen.getD w.freshId
    let around := surroundings w settings
    let run (describe : Bool) := (w.run settings file name chosen describe s).conclusion
    (∀ describe, (run describe).Ends → (run describe = .succeeded ↔
      ∃ l : Launched w settings file name id s, l.waited = .ok (.exited 0))) ∧
    (∀ steps e, Refused w settings file name id s steps e →
      ∀ describe, (steps ≤ w.patience → (run describe).Ends) ∧
        ((run describe).Ends → run describe = .failed e)) ∧
    ∀ l : Launched w settings file name id s,
      (l.steps ≤ w.patience → (run false).Ends) ∧
      (∀ describe, (run describe).Ends → run describe = .ofWait id l.waited) ∧
      (l.lookup.Ends → run true = run false) ∧
      (∀ is, (∀ now o, (now, Task.Event.finish o) ∈ is →
          ∃ time, o = l.waited.map (·.exit time)) →
        let after := l.supervisor.meanwhile around is
        (after.tasks[0]?).map Task.isRunning = some false → ∃ status,
          (after.step around w.now (.remove id)).2.2 = .removed status ∧
            status.result = some (.ofWait l.waited) ∧
            (verdict (.removed status)).2 = .ofWait id l.waited) ∧
      ∃ status, conclude around w.now l.supervisor 0 id (l.waited.map (·.exit w.now)) =
          .removed status ∧ status.result = some (.ofWait l.waited) := by
  intro id around run
  refine ⟨fun describe hends => ⟨fun h => ?_, ?_⟩,
    fun steps e he describe => ⟨fun hle => he.ends hle describe, he.conclusion_eq⟩,
    fun l => ⟨l.ends, fun describe hends => l.conclusion_eq hends, l.conclusion_describe,
      l.removed, ?_⟩⟩
  · rcases refused_or_launched hends with ⟨_, e, he⟩ | ⟨⟨l⟩⟩
    · cases h.symm.trans (he.conclusion_eq hends)
    · exact ⟨l, Conclusion.ofWait_eq_succeeded_iff.mp ((l.conclusion_eq hends).symm.trans h)⟩
  · rintro ⟨l, hl⟩
    exact (l.conclusion_eq hends).trans (Conclusion.ofWait_eq_succeeded_iff.mpr hl)
  · obtain ⟨status, hconclude, hresult, -⟩ := l.concluded
    exact ⟨status, hconclude, hresult⟩

end World

end Capsule
