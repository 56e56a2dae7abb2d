import Capsule.Task
import Capsule.Proofs.Course

/-!
# The life of a task

Whatever happens to a task, in whatever order, its process is waited for at most once, and what
that wait gave is what the task shows from then on.

## Why the accounts speak of the course

The two flags of a task only say that a wait has been claimed and that a monitor has been started.
That the outcome which is shown is the outcome *of the wait* is no fact about the state, so
`Accounts` ties the state to the steps that have led to it: to the outcomes that waits have given,
to the monitors that have been started and to the signals that were sent. It is the invariant from
which everything here follows.

## Main definitions

* `Task.Course`: the steps of a task, with the times at which they were taken
* `Task.outcomes`, `Task.monitors`, `Task.sent`: what happened outside in a course
* `Task.Accounts`: a task and the course that has led to it

## Main results

* `Task.accounts_final`: the accounts are right behind every course
* `Task.step_status_of_terminal`: nothing changes what is shown of a task that has ended
* `Task.one_wait_decides`: the life of a task, from all of these
-/

namespace Capsule

namespace Task

variable {t : Task}

/-! ### What a step can do -/

theorem isRunning_eq_true_iff : t.isRunning = true ↔ t.lifecycle.state = .running := by
  cases h : t.lifecycle.state <;> simp [isRunning, Lifecycle.isRunning, TaskState.isTerminal, h]

theorem isRunning_eq_not_isTerminal (t : Task) : t.isRunning = !t.status.state.isTerminal := rfl

/-- The task with its wait claimed by a run that has begun to wait. -/
def claim (t : Task) : Task :=
  { t with claimed := true, waiters := t.waiters + 1, waits := t.waits + 1 }

/-- A run returns at once, or it claims a wait that nobody has claimed before. -/
theorem enter_cases (t : Task) :
    ((t.isRunning = false ∨ t.claimed = true) ∧ t.enter = t) ∨
      (t.isRunning = true ∧ t.claimed = false ∧ t.enter = t.claim) := by
  rw [enter]
  cases hr : t.isRunning
  · exact .inl ⟨.inl rfl, rfl⟩
  · cases hc : t.claimed
    · exact .inr ⟨rfl, rfl, rfl⟩
    · exact .inl ⟨.inr rfl, rfl⟩

/-- A run that was started in the background is one that begins later. -/
theorem enterPending_cases (t : Task) :
    t.enterPending = t ∨
      ∃ n, t.pending = n + 1 ∧ t.enterPending = { t with pending := n }.enter := by
  rw [enterPending]
  split
  · exact .inl rfl
  · exact .inr ⟨_, by assumption, rfl⟩

/-- The end of a wait matters to the run that waits, and to a task that has not ended. -/
theorem finish_cases (t : Task) (now : Moment) (o : Except Error Exit) :
    (t.waiters = 0 ∧ t.finish now o = t) ∨
      ∃ n, t.waiters = n + 1 ∧
        ((t.isRunning = false ∧ t.finish now o = { t with waiters := n }) ∨
          (t.isRunning = true ∧
            t.finish now o = { t with waiters := n, lifecycle := .ofWait now o })) := by
  rw [finish]
  split
  · exact .inl ⟨by assumption, rfl⟩
  · refine .inr ⟨_, by assumption, ?_⟩
    cases hr : t.isRunning
    · exact .inl ⟨rfl, rfl⟩
    · exact .inr ⟨rfl, rfl⟩

theorem monitor_of_monitored (h : t.monitored = true) : t.monitor = (t, false) := by
  simp [monitor, h]

theorem monitor_of_not_monitored (h : t.monitored = false) :
    t.monitor = ({ t with monitored := true, pending := t.pending + 1 }, true) := by
  simp [monitor, h]

theorem deliver_of_running (h : t.isRunning = true) (s : Signal) (reply : Except Error Unit) :
    t.deliver s reply = ({ t with signals := t.signals ++ [s] }, reply.map fun _ => true) := by
  simp [deliver, h]

theorem deliver_of_ended (h : t.isRunning = false) (s : Signal) (reply : Except Error Unit) :
    t.deliver s reply = (t, .ok false) := by
  simp [deliver, h]

@[simp] theorem lifecycle_enter (t : Task) : t.enter.lifecycle = t.lifecycle := by
  rcases enter_cases t with ⟨-, h⟩ | ⟨-, -, h⟩ <;> rw [h]
  rfl

@[simp] theorem lifecycle_enterPending (t : Task) :
    t.enterPending.lifecycle = t.lifecycle := by
  rcases enterPending_cases t with h | ⟨n, -, h⟩
  · rw [h]
  · rw [h, lifecycle_enter]

@[simp] theorem lifecycle_monitor (t : Task) : t.monitor.1.lifecycle = t.lifecycle := by
  cases h : t.monitored
  · rw [monitor_of_not_monitored h]
  · rw [monitor_of_monitored h]

@[simp] theorem lifecycle_deliver (t : Task) (s : Signal) (reply : Except Error Unit) :
    (t.deliver s reply).1.lifecycle = t.lifecycle := by
  cases h : t.isRunning
  · rw [deliver_of_ended h]
  · rw [deliver_of_running h]

/-- The only step that changes the lifecycle is the end of a wait, for a task that is running. -/
theorem lifecycle_step_cases (t : Task) (now : Moment) (e : Event) :
    (t.step now e).1.lifecycle = t.lifecycle ∨
      ∃ o, e = .finish o ∧ t.isRunning = true ∧ t.waiting = true ∧
        (t.step now e).1.lifecycle = .ofWait now o := by
  cases e with
  | run => exact .inl (lifecycle_enter t)
  | monitor => exact .inl (lifecycle_monitor t)
  | begin => exact .inl (lifecycle_enterPending t)
  | signal s reply => exact .inl (lifecycle_deliver t s reply)
  | look => exact .inl rfl
  | finish o =>
    rcases finish_cases t now o with ⟨-, h⟩ | ⟨n, hn, ⟨-, h⟩ | ⟨hr, h⟩⟩
    · exact .inl (by rw [step, h])
    · exact .inl (by rw [step, h])
    · exact .inr ⟨o, rfl, hr, by simp [waiting, hn], by rw [step, h]⟩

/-! ### What is fixed -/

/-- What the start of a task has fixed. -/
def birth (t : Task) : TaskId × String × String × Child × Nat × Moment :=
  (t.id, t.name, t.machine, t.process, t.origin, t.startedAt)

theorem birth_enter (t : Task) : t.enter.birth = t.birth := by
  rcases enter_cases t with ⟨-, h⟩ | ⟨-, -, h⟩ <;> rw [h]
  rfl

/-- **A task stays the task of its start.** -/
theorem birth_step (t : Task) (now : Moment) (e : Event) : (t.step now e).1.birth = t.birth := by
  cases e with
  | run => exact birth_enter t
  | monitor =>
    cases h : t.monitored
    · simp [step, monitor_of_not_monitored h, birth]
    · simp [step, monitor_of_monitored h]
  | begin =>
    rcases enterPending_cases t with h | ⟨n, -, h⟩
    · exact congrArg birth h
    · exact (congrArg birth h).trans (birth_enter _)
  | signal s reply =>
    cases h : t.isRunning
    · simp [step, deliver_of_ended h]
    · simp [step, deliver_of_running h, birth]
  | look => rfl
  | finish o =>
    rcases finish_cases t now o with ⟨-, h⟩ | ⟨n, -, ⟨-, h⟩ | ⟨-, h⟩⟩ <;> rw [step, h] <;> rfl

theorem id_step (t : Task) (now : Moment) (e : Event) : (t.step now e).1.id = t.id :=
  congrArg (·.1) (birth_step t now e)

theorem process_step (t : Task) (now : Moment) (e : Event) :
    (t.step now e).1.process = t.process :=
  congrArg (·.2.2.2.1) (birth_step t now e)

theorem origin_step (t : Task) (now : Moment) (e : Event) : (t.step now e).1.origin = t.origin :=
  congrArg (·.2.2.2.2.1) (birth_step t now e)

/-- What is shown of a task is fixed by its start and its lifecycle. -/
theorem status_eq_of_lifecycle_eq {t' : Task} (hb : t'.birth = t.birth)
    (hl : t'.lifecycle = t.lifecycle) : t'.status = t.status := by
  simp only [birth, Prod.mk.injEq] at hb
  obtain ⟨hid, hname, hmachine, -, -, hstarted⟩ := hb
  simp only [status, hid, hname, hmachine, hstarted, hl]

/-- **What has ended has ended.** -/
theorem step_status_of_terminal (h : t.status.state.isTerminal = true) (now : Moment) (e : Event) :
    (t.step now e).1.status = t.status := by
  refine status_eq_of_lifecycle_eq (birth_step t now e) ?_
  rcases lifecycle_step_cases t now e with hl | ⟨o, -, hr, -, -⟩
  · exact hl
  · rw [isRunning_eq_not_isTerminal, h] at hr
    exact absurd hr (by decide)

/-- A signal changes nothing that is shown, whatever comes of it. -/
theorem status_deliver (t : Task) (s : Signal) (reply : Except Error Unit) :
    (t.deliver s reply).1.status = t.status :=
  status_eq_of_lifecycle_eq (birth_step t default (.signal s reply)) (lifecycle_deliver t s reply)

/-! ### Courses and accounts -/

/-- What happens to a task at a time. -/
def next (t : Task) (i : Moment × Event) : Task × Response := t.step i.1 i.2

/-- The steps that a task has taken. -/
abbrev History := List (Course.Step Task (Moment × Event) Response)

/-- The outcomes that waits for the process have given. -/
def outcomes (h : History) : List (Except Error Exit) :=
  h.filterMap fun r =>
    match r.input.2 with
    | .finish o => if r.before.waiting then some o else none
    | _ => none

/-- How many monitors have been started. -/
def monitors (h : History) : Nat :=
  h.countP fun r =>
    match r.output with
    | .monitoring started => started
    | _ => false

/-- The signals that were sent while the task was shown as running. -/
def sent (h : History) : List Signal :=
  h.filterMap fun r =>
    match r.input.2 with
    | .signal s _ => if r.before.status.state = .running then some s else none
    | _ => none

/-- What a course says of the task that it has led to. As long as no wait has ended, every wait that
was begun has a run that waits; and after the first, nobody waits any more. -/
structure Accounts (h : History) (t : Task) : Prop where
  waits_eq : t.waits = if t.claimed then 1 else 0
  monitors_eq : monitors h = if t.monitored then 1 else 0
  signals_eq : t.signals = sent h
  ended : (outcomes h = [] ∧ t.waiters = t.waits ∧ t.lifecycle = {}) ∨
    ∃ now o, outcomes h = [o] ∧ t.claimed = true ∧ t.waiters = 0 ∧ t.lifecycle = .ofWait now o

namespace Accounts

variable {h : History}

theorem ofStart (origin : Nat) (id : TaskId) (name machine : String) (process : Child)
    (now : Moment) : Accounts [] (Task.ofStart origin id name machine process now) where
  waits_eq := rfl
  monitors_eq := rfl
  signals_eq := rfl
  ended := .inl ⟨rfl, rfl, rfl⟩

/-- The accounts say nothing of runs that have not begun. -/
theorem withPending (ha : Accounts h t) (n : Nat) : Accounts h { t with pending := n } where
  waits_eq := ha.waits_eq
  monitors_eq := ha.monitors_eq
  signals_eq := ha.signals_eq
  ended := ha.ended

theorem enter (ha : Accounts h t) : Accounts h t.enter := by
  rcases enter_cases t with ⟨-, he⟩ | ⟨-, hc, he⟩
  · rwa [he]
  · rw [he]
    have hwaits : t.waits = 0 := by rw [ha.waits_eq, hc]; rfl
    refine ⟨?_, ha.monitors_eq, ha.signals_eq, ?_⟩
    · simp [claim, hwaits]
    · rcases ha.ended with ⟨hnone, heq, hl⟩ | ⟨now, o, -, hclaimed, -, -⟩
      · exact .inl ⟨hnone, congrArg (· + 1) heq, hl⟩
      · exact absurd (hclaimed.symm.trans hc) (by decide)

theorem enterPending (ha : Accounts h t) : Accounts h t.enterPending := by
  rcases enterPending_cases t with he | ⟨n, -, he⟩
  · rwa [he]
  · rw [he]
    exact (ha.withPending n).enter

/-- A step that the accounts do not mention. -/
theorem quiet (ha : Accounts h t) {r : Course.Step Task (Moment × Event) Response}
    (ho : outcomes [r] = []) (hm : monitors [r] = 0) (hs : sent [r] = []) :
    Accounts (h ++ [r]) t := by
  have ho' : outcomes (h ++ [r]) = outcomes h := by
    rw [outcomes, List.filterMap_append, ← outcomes, ← outcomes, ho, List.append_nil]
  have hm' : monitors (h ++ [r]) = monitors h := by
    rw [monitors, List.countP_append, ← monitors, ← monitors, hm, Nat.add_zero]
  have hs' : sent (h ++ [r]) = sent h := by
    rw [sent, List.filterMap_append, ← sent, ← sent, hs, List.append_nil]
  exact ⟨ha.waits_eq, hm'.trans ha.monitors_eq, ha.signals_eq.trans hs'.symm, by
    rw [ho']; exact ha.ended⟩

theorem monitor (ha : Accounts h t) (now : Moment) :
    Accounts (h ++ [⟨t, (now, .monitor), .monitoring t.monitor.2⟩]) t.monitor.1 := by
  cases hm : t.monitored
  · have hzero : monitors h = 0 := by rw [ha.monitors_eq, hm]; rfl
    rw [monitor_of_not_monitored hm]
    refine ⟨ha.waits_eq, ?_, ?_, ?_⟩
    · rw [monitors, List.countP_append, ← monitors, hzero]
      rfl
    · rw [sent, List.filterMap_append, ← sent, ← ha.signals_eq]
      simp
    · rw [outcomes, List.filterMap_append, ← outcomes]
      simpa using ha.ended
  · rw [monitor_of_monitored hm]
    exact ha.quiet rfl rfl rfl

theorem deliver (ha : Accounts h t) (now : Moment) (s : Signal) (reply : Except Error Unit)
    (response : Except Error Bool) :
    Accounts (h ++ [⟨t, (now, .signal s reply), .signalled response⟩]) (t.deliver s reply).1 := by
  cases hr : t.isRunning
  · have hstate : t.status.state ≠ .running := fun hs => by
      simp [isRunning_eq_not_isTerminal, hs, TaskState.isTerminal] at hr
    rw [deliver_of_ended hr]
    exact ha.quiet rfl rfl (by simp [sent, hstate])
  · have hstate : t.status.state = .running := isRunning_eq_true_iff.mp hr
    rw [deliver_of_running hr]
    refine ⟨ha.waits_eq, ?_, ?_, ?_⟩
    · rw [monitors, List.countP_append, ← monitors, ha.monitors_eq]
      rfl
    · rw [sent, List.filterMap_append, ← sent, ← ha.signals_eq]
      simp [hstate]
    · rw [outcomes, List.filterMap_append, ← outcomes]
      simpa using ha.ended

/-- The first wait that ends is the only one that has been begun, and it decides. -/
theorem finish (ha : Accounts h t) (now : Moment) (o : Except Error Exit) :
    Accounts (h ++ [⟨t, (now, .finish o), .nothing⟩]) (t.finish now o) := by
  rcases finish_cases t now o with ⟨hn, hf⟩ | ⟨n, hn, hf⟩
  · rw [hf]
    exact ha.quiet (by simp [outcomes, waiting, hn]) rfl rfl
  · rcases ha.ended with ⟨hnone, heq, hl⟩ | ⟨-, -, -, -, hzero, -⟩
    · have hr : t.isRunning = true := by rw [isRunning, hl]; rfl
      have hwaits := ha.waits_eq
      have hclaimed : t.claimed = true ∧ n = 0 := by
        rw [← heq, hn] at hwaits
        cases hc : t.claimed <;> simp [hc] at hwaits
        exact ⟨rfl, hwaits⟩
      obtain ⟨hc, rfl⟩ := hclaimed
      rcases hf with ⟨hr', -⟩ | ⟨-, hf⟩
      · exact absurd (hr.symm.trans hr') (by decide)
      · rw [hf]
        refine ⟨ha.waits_eq, ?_, ?_, .inr ⟨now, o, ?_, hc, rfl, rfl⟩⟩
        · rw [monitors, List.countP_append, ← monitors, ha.monitors_eq]
          rfl
        · rw [sent, List.filterMap_append, ← sent, ← ha.signals_eq]
          simp
        · rw [outcomes, List.filterMap_append, ← outcomes, hnone]
          simp [waiting, hn]
    · omega

/-- **The accounts stay right.** -/
theorem next (ha : Accounts h t) (i : Moment × Event) :
    Accounts (h ++ [⟨t, i, (t.next i).2⟩]) (t.next i).1 := by
  obtain ⟨now, e⟩ := i
  cases e with
  | run => exact ha.enter.quiet rfl rfl rfl
  | monitor => exact ha.monitor now
  | begin => exact ha.enterPending.quiet rfl rfl rfl
  | finish o => exact ha.finish now o
  | signal s reply => exact ha.deliver now s reply _
  | look => exact ha.quiet rfl rfl rfl

end Accounts

/-- The accounts are right behind whatever has happened to a task since its start. -/
theorem accounts_final (origin : Nat) (id : TaskId) (name machine : String) (process : Child)
    (startedAt : Moment) (is : List (Moment × Event)) :
    let t := ofStart origin id name machine process startedAt
    Accounts (Course.steps next t is) (Course.final next t is) :=
  Course.invariant next (.ofStart ..) (fun _ _ i ha => ha.next i) is

theorem final_status_of_terminal (h : t.status.state.isTerminal = true)
    (is : List (Moment × Event)) : (Course.final next t is).status = t.status := by
  refine Course.final_invariant next (P := fun u => u.status = t.status) rfl ?_ is
  intro u i hu
  rw [← hu] at h ⊢
  exact step_status_of_terminal h i.1 i.2

/-! ### What is shown -/

namespace Accounts

variable {h : History}

theorem waits_le_one (ha : Accounts h t) : t.waits ≤ 1 := by
  rw [ha.waits_eq]
  split <;> decide

theorem monitors_le_one (ha : Accounts h t) : monitors h ≤ 1 := by
  rw [ha.monitors_eq]
  split <;> decide

/-- A monitor is started if none has been started before. -/
theorem monitoring_eq (ha : Accounts h t) (now : Moment) :
    (t.step now .monitor).2 = .monitoring (decide (monitors h = 0)) := by
  show Response.monitoring t.monitor.2 = _
  rw [ha.monitors_eq]
  cases hm : t.monitored
  · rw [monitor_of_not_monitored hm]
    rfl
  · rw [monitor_of_monitored hm]
    rfl

/-- Behind the beginning of a run the wait is claimed, by that run or by one before it. -/
theorem claimed_run (ha : Accounts h t) (now : Moment) : (t.step now .run).1.claimed = true := by
  show t.enter.claimed = true
  rcases enter_cases t with ⟨hstop, he⟩ | ⟨-, -, he⟩
  · rw [he]
    rcases ha.ended with ⟨-, -, hl⟩ | ⟨_, _, -, hc, -, -⟩
    · have hr : t.isRunning = true := by rw [isRunning, hl]; rfl
      exact hstop.resolve_left (by simp [hr])
    · exact hc
  · rw [he]
    rfl

/-- A wait that has been claimed is under way or has ended the task. -/
theorem terminal_of_claimed (ha : Accounts h t) (hc : t.claimed = true) (hw : t.waiters = 0) :
    t.status.state.isTerminal = true := by
  rcases ha.ended with ⟨-, heq, -⟩ | ⟨now, o, -, -, -, hl⟩
  · have hwaits := ha.waits_eq
    rw [hc, ← heq, hw] at hwaits
    exact absurd hwaits (by decide)
  · show t.lifecycle.state.isTerminal = true
    rw [hl]
    cases o <;> rfl

/-- What is shown of a task, against the outcomes that waits have given. -/
theorem status_cases (ha : Accounts h t) :
    (outcomes h = [] ∧ t.status.state = .running ∧ t.status.completedAt = none ∧
        t.status.result = none) ∨
      (∃ exit, outcomes h = [.ok exit] ∧ t.status.state = .exited ∧
        t.status.completedAt = some exit.time ∧
        t.status.result = some { code := exit.code, signal := exit.signal, error := none }) ∨
      ∃ now failure, outcomes h = [.error failure] ∧ t.status.state = .unknown ∧
        t.status.completedAt = some now ∧
        t.status.result = some { code := 0, signal := 0, error := some failure.message } := by
  rcases ha.ended with ⟨hnone, -, hl⟩ | ⟨now, o, ho, -, -, hl⟩
  · exact .inl ⟨hnone, by simp [status, hl]⟩
  · cases o with
    | ok exit => exact .inr (.inl ⟨exit, ho, by simp [status, hl, Lifecycle.ofWait]⟩)
    | error failure =>
      exact .inr (.inr ⟨now, failure, ho, by simp [status, hl, Lifecycle.ofWait]⟩)

/-- A task is running for as long as it shows no end and no outcome. -/
theorem running_iff (ha : Accounts h t) :
    (t.status.state = .running ↔ t.status.completedAt = none) ∧
      (t.status.completedAt = none ↔ t.status.result = none) := by
  rcases ha.status_cases with ⟨-, hs, hc, hr⟩ | ⟨exit, -, hs, hc, hr⟩ | ⟨now, f, -, hs, hc, hr⟩ <;>
    simp [hs, hc, hr]

/-- A task is running for as long as no wait has given an outcome. -/
theorem running_iff_outcomes (ha : Accounts h t) :
    t.status.state = .running ↔ outcomes h = [] := by
  rcases ha.status_cases with ⟨ho, hs, -, -⟩ | ⟨exit, ho, hs, -, -⟩ | ⟨now, f, ho, hs, -, -⟩ <;>
    simp [ho, hs]

/-- A task has exited just when the wait gave how. -/
theorem exited_iff (ha : Accounts h t) :
    t.status.state = .exited ↔
      ∃ exit, outcomes h = [.ok exit] ∧ t.status.completedAt = some exit.time ∧
        t.status.result = some { code := exit.code, signal := exit.signal, error := none } := by
  rcases ha.status_cases with ⟨ho, hs, hc, hr⟩ | ⟨exit, ho, hs, hc, hr⟩ | ⟨now, f, ho, hs, hc, hr⟩
  · simp [hs, ho]
  · exact ⟨fun _ => ⟨exit, ho, hc, hr⟩, fun _ => hs⟩
  · simp [hs, ho]

/-- Nothing is known of a task's end just when the wait failed. -/
theorem unknown_iff (ha : Accounts h t) :
    t.status.state = .unknown ↔
      ∃ failure, outcomes h = [.error failure] ∧
        t.status.result = some { code := 0, signal := 0, error := some failure.message } := by
  rcases ha.status_cases with ⟨ho, hs, hc, hr⟩ | ⟨exit, ho, hs, hc, hr⟩ | ⟨now, f, ho, hs, hc, hr⟩
  · simp [hs, ho]
  · simp [hs, ho]
  · exact ⟨fun _ => ⟨f, ho, hr⟩, fun _ => hs⟩

end Accounts

/-! ### Tasks that can come about -/

/-- A task behind some course since its start. -/
def Reachable (t : Task) : Prop :=
  ∃ origin id name machine process startedAt is,
    t = Course.final next (ofStart origin id name machine process startedAt) is

theorem Reachable.step (ht : t.Reachable) (now : Moment) (e : Event) :
    (t.step now e).1.Reachable := by
  obtain ⟨origin, id, name, machine, process, startedAt, is, rfl⟩ := ht
  refine ⟨origin, id, name, machine, process, startedAt, is ++ [(now, e)], ?_⟩
  rw [Course.final_append]
  rfl

/-- A task that has ended shows when it ended, and how. -/
theorem Reachable.isSome_of_terminal (ht : t.Reachable)
    (h : t.status.state.isTerminal = true) :
    t.status.completedAt.isSome = true ∧ t.status.result.isSome = true := by
  obtain ⟨origin, id, name, machine, process, startedAt, is, rfl⟩ := ht
  have ha := accounts_final origin id name machine process startedAt is
  rcases ha.status_cases with ⟨-, hs, -, -⟩ | ⟨_, -, -, hc, hr⟩ | ⟨_, _, -, -, hc, hr⟩
  · rw [hs] at h
    exact absurd h (by decide)
  · rw [hc, hr]
    exact ⟨rfl, rfl⟩
  · rw [hc, hr]
    exact ⟨rfl, rfl⟩

/-- **The life of a task.** However many runs overlap, and in whatever order everything happens that
can: the process is waited for at most once, and a run that begins sees to it; a monitor is started
by the first who starts one and by nobody else; the end, the outcome and the phase that are shown
belong together, and are those of that wait; what is shown of a task that has ended stays; a wait
that has been claimed and that nobody waits for any more has ended the task. Signals reach the
process only while the task is running, and change nothing that is shown. -/
theorem one_wait_decides (origin : Nat) (id : TaskId) (name machine : String) (process : Child)
    (startedAt : Moment) (is : List (Moment × Event)) :
    let t₀ := ofStart origin id name machine process startedAt
    let t := Course.final next t₀ is
    let h := Course.steps next t₀ is
    t.waits ≤ 1 ∧ (∀ now, (t.step now .run).1.claimed = true) ∧
      monitors h ≤ 1 ∧
      (∀ now, (t.step now .monitor).2 = .monitoring (decide (monitors h = 0))) ∧
      (t.status.state = .running ↔ outcomes h = []) ∧
      (t.status.state = .running ↔ t.status.completedAt = none) ∧
      (t.status.completedAt = none ↔ t.status.result = none) ∧
      (t.status.state = .exited ↔
        ∃ exit, outcomes h = [.ok exit] ∧ t.status.completedAt = some exit.time ∧
          t.status.result = some { code := exit.code, signal := exit.signal, error := none }) ∧
      (t.status.state = .unknown ↔
        ∃ failure, outcomes h = [.error failure] ∧
          t.status.result = some { code := 0, signal := 0, error := some failure.message }) ∧
      (t.status.state.isTerminal = true → ∀ more, (Course.final next t more).status = t.status) ∧
      (t.claimed = true → t.waiters = 0 → t.status.state.isTerminal = true) ∧
      t.signals = sent h ∧
      ∀ now s reply, (t.step now (.signal s reply)).1.status = t.status := by
  intro t₀ t h
  have ha : Accounts h t := accounts_final origin id name machine process startedAt is
  refine ⟨ha.waits_le_one, ha.claimed_run, ha.monitors_le_one, ha.monitoring_eq,
    ha.running_iff_outcomes, ha.running_iff.1, ha.running_iff.2, ha.exited_iff, ha.unknown_iff,
    fun hterminal => ?_, ha.terminal_of_claimed, ha.signals_eq, ?_⟩
  · intro more
    exact final_status_of_terminal hterminal more
  · intro now s reply
    exact status_deliver t s reply

end Task

end Capsule
