import Capsule.Proofs.Supervisor.Exclusion
import Capsule.Proofs.Supervisor.Stages

/-!
# A launch among others

A supervisor takes the steps of many launches in turn, and steps that have to do with none. This
file follows one launch through them. `ofLaunch` takes its steps out of a history: the one that
began it and those that took it further or gave it up. What lies between two of them may be
anything, and leaves the launch where it is (`launch?_next`).

What such a launch does is `Journey.launch`, for what it has met in these steps. The induction is
on the occurrences behind a state in which the launch waits (`follows_lead`); the step that began
the launch and those that took it further are all of one kind, `follows_advance`.

## What is said of the tasks

Other launches track their tasks between the steps of this one, so nothing is said of the tasks
before the launch and those behind it. What a launch does not do is said of its own steps, each with
the state before it and the state behind it (`LeavesTasks`).

## Main definitions

* `Supervisor.ofLaunch`, `Supervisor.meetings`: the steps of a launch, and what it met in them
* `Supervisor.GoesBy`: how these steps go by, for what the launch comes to

## Main results

* `Supervisor.follows_start`: the steps of a launch are its journey
* `Supervisor.launch_in_stages`: what that means for refusals, failures and successes
-/

namespace Capsule

namespace Supervisor

/-- A step of a supervisor. -/
abbrev Taken := Course.Step Supervisor Occurrence (Effects × Outcome)

variable {s : Supervisor} {ticket : Nat}

/-- The launch that an event begins, takes further or gives up, if it does. -/
def ticketOf? (s : Supervisor) : Event → Option Nat
  | .start id _ _ => if s.isTaken id then none else some s.begun
  | .resume ticket _ _ => (s.launch? ticket).map fun _ => ticket
  | .abandon ticket => (s.launch? ticket).map fun _ => ticket
  | _ => none

/-- The steps of a launch, in their order. -/
def ofLaunch (ticket : Nat) (h : History) : History :=
  h.filter fun t => t.before.ticketOf? t.input.event = some ticket

/-- What a launch meets in a step that takes it further. -/
def meeting? (t : Taken) : Option Meeting :=
  match t.input.event with
  | .resume _ time arrival => some ⟨time, arrival, t.input.surroundings, t.before.starts⟩
  | _ => none

/-- What a launch meets in its steps. -/
def meetings (h : History) : List Meeting := h.filterMap meeting?

/-- What steps do outside, one after the other. -/
def effects (h : History) : Effects := h.foldr (fun t e => t.output.1 ++ e) {}

/-- The state behind a step. -/
def behind (t : Taken) : Supervisor := (next t.before t.input).1

/-! ### Launches that wait -/

theorem launch?_withdraw (s : Supervisor) (ticket : Nat) :
    (s.withdraw ticket).launch? ticket = none := by
  simp [launch?, withdraw, List.find?_eq_none]

theorem launch?_withdraw_of_ne (s : Supervisor) {other : Nat} (h : other ≠ ticket) :
    (s.withdraw other).launch? ticket = s.launch? ticket := by
  rw [launch?, withdraw, List.find?_filter, launch?]
  congr 1
  funext l
  by_cases hl : l.ticket = ticket
  · simp [hl, Ne.symm h]
  · simp [hl]

theorem launch?_append (s : Supervisor) (l : Launch) :
    launch? { s with launches := s.launches ++ [l] } ticket =
      (s.launch? ticket).or (if l.ticket = ticket then some l else none) := by
  rw [launch?, List.find?_append, launch?, List.find?_singleton]
  simp

/-- What a step leads to when a launch is taken up again. -/
theorem advance_cases (w : Surroundings) (now : Moment) (s : Supervisor) (ticket : Nat)
    (id : TaskId) (name : String) (a : Advance) :
    let r := advance w now s ticket id name a
    (∃ p, a.status = .waiting p ∧
      r = ({ s with launches := s.launches ++ [⟨ticket, id, name, p⟩] }, Journey.effectsOf a,
        .waiting ticket)) ∨
    (∃ e, a.status = .failed e ∧ r = (s.release id, Journey.effectsOf a, .failed e)) ∨
    (∃ config arguments failure, a.status = .ready config arguments ∧
      w.launcher s.starts arguments = .error failure ∧
      r = ({ s with starts := s.starts + 1 }.release id,
        Journey.effectsOf a ++ { starts := [arguments] }, .failed (.process failure))) ∨
    ∃ config arguments process, a.status = .ready config arguments ∧
      w.launcher s.starts arguments = .ok process ∧
      r = ({ s with
          starts := s.starts + 1
          tasks := s.tasks ++
            [(Task.ofStart s.starts id name config.machine process now).monitor.1]
          tracked := s.tracked.insert id s.tasks.length }.release id,
        Journey.effectsOf a ++
          { starts := [arguments], started := [⟨s.starts, id, process⟩] },
        .launched s.tasks.length) := by
  intro r
  cases h : a.status with
  | failed e => exact .inr (.inl ⟨e, rfl, by simp only [r, advance, h]; rfl⟩)
  | waiting p => exact .inl ⟨p, rfl, by simp only [r, advance, h]; rfl⟩
  | ready config arguments =>
    cases hw : w.launcher s.starts arguments with
    | error failure =>
      refine .inr (.inr (.inl ⟨config, arguments, failure, rfl, hw, ?_⟩))
      simp only [r, advance, h, launch, hw]
      refine Prod.ext rfl (Prod.ext ?_ rfl)
      ext1 <;> simp [Journey.effectsOf]
    | ok process =>
      refine .inr (.inr (.inr ⟨config, arguments, process, rfl, hw, ?_⟩))
      simp only [r, advance, h, launch, hw]
      refine Prod.ext rfl (Prod.ext ?_ rfl)
      ext1 <;> simp [Journey.effectsOf]

theorem launch?_advance_of_ne (w : Surroundings) (now : Moment) (s : Supervisor) {other : Nat}
    (h : other ≠ ticket) (id : TaskId) (name : String) (a : Advance) :
    (advance w now s other id name a).1.launch? ticket = s.launch? ticket := by
  rcases advance_cases w now s other id name a with ⟨p, -, hr⟩ | ⟨e, -, hr⟩ |
    ⟨_, _, _, -, -, hr⟩ | ⟨_, _, _, -, -, hr⟩
  · rw [hr, launch?_append, if_neg h, Option.or_none]
  · rw [hr]
    rfl
  · rw [hr]
    rfl
  · rw [hr]
    rfl

/-- What happens to tasks happens to no launch. -/
theorem launches_touch (now : Moment) (s : Supervisor) (position : Nat) (e : Task.Event) :
    (s.touch now position e).1.launches = s.launches ∧
      (s.touch now position e).1.begun = s.begun := by
  rw [touch]
  split <;> exact ⟨rfl, rfl⟩

theorem launches_signal (now : Moment) (s : Supervisor) (id : TaskId) (signal : Signal)
    (reply : Except Error Unit) :
    (s.signal now id signal reply).1.launches = s.launches ∧
      (s.signal now id signal reply).1.begun = s.begun := by
  rw [Supervisor.signal]
  split
  · exact ⟨rfl, rfl⟩
  · exact launches_touch now s _ _

theorem launches_remove (s : Supervisor) (id : TaskId) :
    (s.remove id).1.launches = s.launches ∧ (s.remove id).1.begun = s.begun := by
  rcases remove_cases s id with ⟨-, hr⟩ | ⟨_, _, -, ⟨-, hr⟩ | ⟨-, hr⟩⟩ <;> rw [hr] <;>
    exact ⟨rfl, rfl⟩

theorem launch?_congr {t : Supervisor} (h : t.launches = s.launches) :
    t.launch? ticket = s.launch? ticket := by
  rw [launch?, h, launch?]

/-- A step of another launch, or of none, leaves a launch where it is. -/
theorem launch?_next (hbegun : ticket < s.begun) {o : Occurrence}
    (h : s.ticketOf? o.event ≠ some ticket) : (s.next o).1.launch? ticket = s.launch? ticket := by
  obtain ⟨w, now, e⟩ := o
  cases e with
  | start id name config =>
    show (s.start w now id name config).1.launch? ticket = _
    rw [start]
    split
    · rfl
    · exact launch?_advance_of_ne w now { s.reserve id with begun := s.begun + 1 }
        (Nat.ne_of_gt hbegun) id name _
  | resume other time arrival =>
    show (s.resume w now time other arrival).1.launch? ticket = _
    rw [resume]
    cases hl : s.launch? other with
    | none => rfl
    | some l =>
      have hne : other ≠ ticket := fun he => h (by simp [ticketOf?, he ▸ hl, he])
      simp only
      rw [launch?_advance_of_ne w now _ hne, launch?_withdraw_of_ne s hne]
  | abandon other =>
    show (s.abandon other).launch? ticket = _
    rw [abandon]
    cases hl : s.launch? other with
    | none => rfl
    | some l =>
      have hne : other ≠ ticket := fun he => h (by simp [ticketOf?, he ▸ hl, he])
      exact launch?_withdraw_of_ne s hne
  | signal id signal reply => exact launch?_congr (launches_signal now s id signal reply).1
  | remove id => exact launch?_congr (launches_remove s id).1
  | find id => rfl
  | list => rfl
  | task position e => exact launch?_congr (launches_touch now s position e).1

theorem begun_next (s : Supervisor) (o : Occurrence) : s.begun ≤ (s.next o).1.begun := by
  obtain ⟨w, now, e⟩ := o
  cases e with
  | start id name config =>
    cases hid : s.isTaken id with
    | true =>
      have hsame := start_of_isTaken w now name config hid
      exact Nat.le_of_eq (congrArg (·.1.begun) hsame).symm
    | false =>
      have hnext : (s.next ⟨w, now, .start id name config⟩).1.begun = s.begun + 1 :=
        begun_start w now name config hid
      omega
  | resume ticket time arrival =>
    show s.begun ≤ (s.resume w now time ticket arrival).1.begun
    rw [resume]
    split
    · exact Nat.le_refl _
    · exact Nat.le_of_eq (begun_advance w now (s.withdraw ticket) ticket _ _ _).symm
  | abandon ticket =>
    show s.begun ≤ (s.abandon ticket).begun
    rw [abandon]
    split
    · exact Nat.le_refl _
    · exact Nat.le_refl _
  | signal id signal reply => exact Nat.le_of_eq (launches_signal now s id signal reply).2.symm
  | remove id => exact Nat.le_of_eq (launches_remove s id).2.symm
  | find id => exact Nat.le_refl _
  | list => exact Nat.le_refl _
  | task position e => exact Nat.le_of_eq (launches_touch now s position e).2.symm

/-- A launch that has begun is in its steps only while it waits. -/
theorem exists_of_ticketOf? (hbegun : ticket < s.begun) {e : Event}
    (h : s.ticketOf? e = some ticket) : ∃ l, s.launch? ticket = some l ∧
      ((∃ time arrival, e = .resume ticket time arrival) ∨ e = .abandon ticket) := by
  cases e with
  | start id name config =>
    rw [ticketOf?] at h
    split at h
    · cases h
    · cases h
      exact absurd hbegun (Nat.lt_irrefl _)
  | resume other time arrival =>
    obtain ⟨l, hl, rfl⟩ := Option.map_eq_some_iff.mp h
    exact ⟨l, hl, .inl ⟨time, arrival, rfl⟩⟩
  | abandon other =>
    obtain ⟨l, hl, rfl⟩ := Option.map_eq_some_iff.mp h
    exact ⟨l, hl, .inr rfl⟩
  | signal | remove | find | list | task => cases h

theorem ofLaunch_steps_cons (ticket : Nat) (s : Supervisor) (o : Occurrence)
    (os : List Occurrence) :
    ofLaunch ticket (Course.steps next s (o :: os)) =
      if s.ticketOf? o.event = some ticket then
        ⟨s, o, (s.next o).2⟩ :: ofLaunch ticket (Course.steps next (s.next o).1 os)
      else ofLaunch ticket (Course.steps next (s.next o).1 os) := by
  simp only [ofLaunch, Course.steps, List.filter_cons, decide_eq_true_eq]

/-- A launch that is over takes no more steps. -/
theorem ofLaunch_of_over (hover : s.launch? ticket = none) (hbegun : ticket < s.begun)
    (os : List Occurrence) : ofLaunch ticket (Course.steps next s os) = [] := by
  induction os generalizing s with
  | nil => rfl
  | cons o os ih =>
    have hother : s.ticketOf? o.event ≠ some ticket := by
      intro h
      obtain ⟨l, hl, -⟩ := exists_of_ticketOf? hbegun h
      cases hover.symm.trans hl
    rw [ofLaunch_steps_cons, if_neg hother]
    exact ih ((launch?_next hbegun hother).trans hover)
      (Nat.lt_of_lt_of_le hbegun (begun_next s o))

/-! ### The steps and the journey -/

/-- A step that changes no task, tracks none and starts no process. -/
structure LeavesTasks (t : Taken) : Prop where
  tasks_eq : (behind t).tasks = t.before.tasks
  tracked_eq : (behind t).tracked = t.before.tracked
  started_eq : t.output.1.started = []

/-- A step in which the process of a launch has been started, and behind which its task is
tracked. -/
structure TracksTask (id : TaskId) (name : String) (a : Arrived) (t : Taken) : Prop where
  outcome_eq : t.output.2 = .launched t.before.tasks.length
  tasks_eq : (behind t).tasks = t.before.tasks ++
    [(Task.ofStart t.before.starts id name a.config.machine a.process t.input.now).monitor.1]
  tracked_eq : (behind t).tracked = t.before.tracked.insert id t.before.tasks.length

/-- A step behind which a launch waits. -/
structure Waits (ticket : Nat) (t : Taken) : Prop where
  outcome_eq : t.output.2 = .waiting ticket
  leavesTasks : LeavesTasks t

/-- The last step of a launch, for what its journey comes to. -/
def Ends (ticket : Nat) (id : TaskId) (name : String) (t : Taken) :
    EStateM.Result Journey.Halt Journey.Point Arrived → Prop
  | .ok a y => y.scene = ⟨t.input.surroundings, t.before.starts⟩ ∧ TracksTask id name a t
  | .error (.failed e) _ => t.output.2 = .failed e ∧ LeavesTasks t ∧ (behind t).isTaken id = false
  | .error .waiting _ =>
    t.input.event = .abandon ticket ∧ LeavesTasks t ∧ (behind t).isTaken id = false

/-- The steps of a launch, for what its journey comes to: it waits behind all of them, or behind all
but the last. -/
def GoesBy (ticket : Nat) (id : TaskId) (name : String) (h : History)
    (r : EStateM.Result Journey.Halt Journey.Point Arrived) : Prop :=
  ∃ waits : History, (∀ t ∈ waits, Waits ticket t) ∧
    (h = waits ∧ (∃ y, r = .error .waiting y) ∨
      ∃ last, h = waits ++ [last] ∧ Ends ticket id name last r)

theorem goesBy_nil (id : TaskId) (name : String) (y : Journey.Point) :
    GoesBy ticket id name [] (.error .waiting y) :=
  ⟨[], by simp, .inl ⟨rfl, y, rfl⟩⟩

theorem goesBy_singleton {id : TaskId} {name : String} {t : Taken}
    {r : EStateM.Result Journey.Halt Journey.Point Arrived} (ht : Ends ticket id name t r) :
    GoesBy ticket id name [t] r :=
  ⟨[], by simp, .inr ⟨t, rfl, ht⟩⟩

theorem GoesBy.cons {id : TaskId} {name : String} {t : Taken} {h : History}
    {r : EStateM.Result Journey.Halt Journey.Point Arrived} (ht : Waits ticket t)
    (hh : GoesBy ticket id name h r) : GoesBy ticket id name (t :: h) r := by
  obtain ⟨waits, hwaits, ⟨rfl, hr⟩ | ⟨last, rfl, hlast⟩⟩ := hh
  · exact ⟨t :: h, List.forall_mem_cons.mpr ⟨ht, hwaits⟩, .inl ⟨rfl, hr⟩⟩
  · exact ⟨t :: waits, List.forall_mem_cons.mpr ⟨ht, hwaits⟩, .inr ⟨last, rfl, hlast⟩⟩

/-- Steps of a launch that go by as a journey comes out, and do what it does. -/
structure Follows (ticket : Nat) (id : TaskId) (name : String) (m : Journey Arrived)
    (x : Journey.Point) (h : History) : Prop where
  goesBy : GoesBy ticket id name h (m x)
  effects_eq : (Journey.behind (m x)).effects = x.effects ++ effects h

theorem effects_cons (t : Taken) (h : History) : effects (t :: h) = t.output.1 ++ effects h := rfl

theorem effects_singleton (t : Taken) : effects [t] = t.output.1 := Effects.append_empty _

namespace Follows

variable {id : TaskId} {name : String} {a : Advance} {x : Journey.Point} {t : Taken}

/-- Only what a journey comes to matters, and what had been done before. -/
theorem congr {m m' : Journey Arrived} {x' : Journey.Point} {h : History}
    (f : Follows ticket id name m x h) (hm : m' x' = m x) (he : x'.effects = x.effects) :
    Follows ticket id name m' x' h :=
  ⟨hm ▸ f.goesBy, by rw [hm, he, f.effects_eq]⟩

theorem waited {p : Preparation} {h : History} (hstatus : a.status = .waiting p)
    (houtput : t.output = (Journey.effectsOf a, .waiting ticket)) (quiet : LeavesTasks t)
    (rest : Follows ticket id name (Journey.lead id (.waiting p))
      { x with effects := x.effects ++ Journey.effectsOf a } h) :
    Follows ticket id name (Journey.pursue id a) x (t :: h) := by
  have hpursue : Journey.pursue id a x =
      Journey.lead id (.waiting p) { x with effects := x.effects ++ Journey.effectsOf a } := by
    rw [← hstatus]
    rfl
  refine ⟨?_, ?_⟩
  · rw [hpursue]
    exact .cons ⟨congrArg (·.2) houtput, quiet⟩ rest.goesBy
  · rw [hpursue, rest.effects_eq, effects_cons, houtput, Effects.append_assoc]

theorem failed {e : Error} (hstatus : a.status = .failed e)
    (houtput : t.output = (Journey.effectsOf a, .failed e)) (quiet : LeavesTasks t)
    (free : (behind t).isTaken id = false) :
    Follows ticket id name (Journey.pursue id a) x [t] := by
  have hpursue : Journey.pursue id a x =
      .error (.failed e) { x with effects := x.effects ++ Journey.effectsOf a } := by
    rw [Journey.pursue, hstatus, Journey.lead_failed]
    rfl
  refine ⟨?_, ?_⟩
  · rw [hpursue]
    exact goesBy_singleton ⟨congrArg (·.2) houtput, quiet, free⟩
  · rw [hpursue, effects_singleton, houtput]
    rfl

theorem pursue_ready_apply {config : Config} {arguments : List String}
    (hstatus : a.status = .ready config arguments) :
    Journey.pursue id a x =
      (do return ⟨config, arguments, ← Journey.start id arguments⟩ : Journey Arrived)
        { x with effects := x.effects ++ Journey.effectsOf a } := by
  rw [Journey.pursue, hstatus, Journey.lead_ready]
  rfl

theorem refused {config : Config} {arguments : List String} {failure : ProcessFailure}
    (hstatus : a.status = .ready config arguments)
    (hw : x.scene.surroundings.launcher x.scene.starts arguments = .error failure)
    (houtput : t.output =
      (Journey.effectsOf a ++ { starts := [arguments] }, .failed (.process failure)))
    (quiet : LeavesTasks t) (free : (behind t).isTaken id = false) :
    Follows ticket id name (Journey.pursue id a) x [t] := by
  have hpursue : Journey.pursue id a x = .error (.failed (.process failure))
      { x with effects := x.effects ++ Journey.effectsOf a ++ { starts := [arguments] } } := by
    have hstart := Journey.start_of_error
      (x := { x with effects := x.effects ++ Journey.effectsOf a }) hw id
    rw [pursue_ready_apply hstatus, Journey.bind_apply, hstart]
  refine ⟨?_, ?_⟩
  · rw [hpursue]
    exact goesBy_singleton ⟨congrArg (·.2) houtput, quiet, free⟩
  · rw [hpursue, effects_singleton, houtput, ← Effects.append_assoc]
    rfl

theorem arrived {config : Config} {arguments : List String} {process : Child}
    (hstatus : a.status = .ready config arguments)
    (hscene : x.scene = ⟨t.input.surroundings, t.before.starts⟩)
    (hw : x.scene.surroundings.launcher x.scene.starts arguments = .ok process)
    (heffects : t.output.1 = Journey.effectsOf a ++
      { starts := [arguments], started := [⟨x.scene.starts, id, process⟩] })
    (tracks : TracksTask id name ⟨config, arguments, process⟩ t) :
    Follows ticket id name (Journey.pursue id a) x [t] := by
  have hpursue : Journey.pursue id a x = .ok ⟨config, arguments, process⟩
      { x with effects := x.effects ++ Journey.effectsOf a ++
        { starts := [arguments], started := [⟨x.scene.starts, id, process⟩] } } := by
    have hstart := Journey.start_of_ok
      (x := { x with effects := x.effects ++ Journey.effectsOf a }) hw id
    rw [pursue_ready_apply hstatus, Journey.bind_apply, hstart]
    rfl
  refine ⟨?_, ?_⟩
  · rw [hpursue]
    exact goesBy_singleton ⟨hscene, tracks⟩
  · rw [hpursue, effects_singleton, heffects, ← Effects.append_assoc]
    rfl

end Follows

/-- A step that ends with giving the id back leaves the tasks alone, and the id free. -/
theorem leaves_of_release {id : TaskId} {t : Taken} {n : Nat}
    (hbehind : behind t = { s with starts := n }.release id) (htasks : s.tasks = t.before.tasks)
    (htracked : s.tracked = t.before.tracked) (hfree : s.tracked.get? id = none)
    (hstarted : t.output.1.started = []) : LeavesTasks t ∧ (behind t).isTaken id = false := by
  refine ⟨⟨?_, ?_, hstarted⟩, ?_⟩
  · rw [hbehind]
    exact htasks
  · rw [hbehind]
    exact htracked
  · rw [hbehind]
    simp [isTaken, release, hfree]

/-- A step that takes a launch further, and all steps of the launch after that. -/
theorem follows_advance {s₀ : Supervisor} {o : Occurrence} {id : TaskId} {name : String}
    {a : Advance} (hstep : s₀.next o = advance o.surroundings o.now s ticket id name a)
    (htasks : s.tasks = s₀.tasks) (htracked : s.tracked = s₀.tracked)
    (hstarts : s.starts = s₀.starts) (hgone : s.launch? ticket = none)
    (hbegun : ticket < s.begun) (hfree : s.tracked.get? id = none) (os : List Occurrence)
    (before : Effects)
    (ih : ∀ p, (s₀.next o).1.launch? ticket = some ⟨ticket, id, name, p⟩ →
      let h := ofLaunch ticket (Course.steps next (s₀.next o).1 os)
      Follows ticket id name (Journey.lead id (.waiting p))
        ⟨⟨o.surroundings, s₀.starts⟩, meetings h, before ++ Journey.effectsOf a⟩ h) :
    let h := ofLaunch ticket (Course.steps next (s₀.next o).1 os)
    Follows ticket id name (Journey.pursue id a)
      ⟨⟨o.surroundings, s₀.starts⟩, meetings h, before⟩ (⟨s₀, o, (s₀.next o).2⟩ :: h) := by
  have hover {r : Result} (hr : s₀.next o = r) (hl : r.1.launches = s.launches)
      (hb : r.1.begun = s.begun) : ofLaunch ticket (Course.steps next (s₀.next o).1 os) = [] := by
    subst hr
    exact ofLaunch_of_over ((launch?_congr hl).trans hgone) (hb ▸ hbegun) os
  -- Only a launch that waits again has steps behind this one.
  rcases advance_cases o.surroundings o.now s ticket id name a with ⟨p, hstatus, hr⟩ |
    ⟨e, hstatus, hr⟩ | ⟨config, arguments, failure, hstatus, hw, hr⟩ |
    ⟨config, arguments, process, hstatus, hw, hr⟩ <;> rw [← hstep] at hr
  · have hwaits : (s₀.next o).1.launch? ticket = some ⟨ticket, id, name, p⟩ := by
      rw [hr, launch?_append, hgone]
      simp
    have hquiet : LeavesTasks ⟨s₀, o, (s₀.next o).2⟩ :=
      ⟨(congrArg (·.1.tasks) hr).trans htasks, (congrArg (·.1.tracked) hr).trans htracked,
        congrArg (·.2.1.started) hr⟩
    exact .waited hstatus (congrArg (·.2) hr) hquiet (ih p hwaits)
  · obtain ⟨hquiet, hid⟩ := leaves_of_release (n := s.starts) (t := ⟨s₀, o, (s₀.next o).2⟩)
      (congrArg (·.1) hr) htasks htracked hfree (congrArg (·.2.1.started) hr)
    rw [hover hr rfl rfl]
    exact .failed hstatus (congrArg (·.2) hr) hquiet hid
  · obtain ⟨hquiet, hid⟩ := leaves_of_release (t := ⟨s₀, o, (s₀.next o).2⟩)
      (congrArg (·.1) hr) htasks htracked hfree (congrArg (·.2.1.started) hr)
    rw [hover hr rfl rfl]
    exact .refused hstatus (hstarts ▸ hw) (congrArg (·.2) hr) hquiet hid
  · rw [hover hr rfl rfl]
    refine .arrived hstatus rfl (hstarts ▸ hw) (by rw [hr, hstarts]) ⟨?_, ?_, ?_⟩
    · rw [hr, htasks]
    · show (s₀.next o).1.tasks = _
      rw [hr, htasks, ← hstarts]
      rfl
    · show (s₀.next o).1.tracked = _
      rw [hr, htracked, htasks]
      rfl

theorem next_resume {l : Launch} (hl : s.launch? ticket = some l) (w : Surroundings)
    (now : Moment) (time : Nat) (arrival : Arrival) :
    s.next ⟨w, now, .resume ticket time arrival⟩ =
      advance w now (s.withdraw ticket) ticket l.id l.name
        (l.preparation.resume w.host time arrival) := by
  show s.resume w now time ticket arrival = _
  rw [resume, hl]

theorem next_abandon {l : Launch} (hl : s.launch? ticket = some l) (w : Surroundings)
    (now : Moment) :
    s.next ⟨w, now, .abandon ticket⟩ = ((s.withdraw ticket).release l.id, {}, .nothing) := by
  show (s.abandon ticket, _) = _
  rw [abandon, hl]

/-- A launch that is given up has met nothing more. -/
theorem follows_abandon {l : Launch} (hl : s.launch? ticket = some l)
    (hfree : s.tracked.get? l.id = none) (w : Surroundings) (now : Moment) (scene : Scene)
    (before : Effects) :
    Follows ticket l.id l.name (Journey.lead l.id (.waiting l.preparation)) ⟨scene, [], before⟩
      [⟨s, ⟨w, now, .abandon ticket⟩, (s.next ⟨w, now, .abandon ticket⟩).2⟩] := by
  have hstep := next_abandon hl w now
  obtain ⟨hquiet, hid⟩ := leaves_of_release (s := s.withdraw ticket)
    (t := ⟨s, ⟨w, now, .abandon ticket⟩, (s.next ⟨w, now, .abandon ticket⟩).2⟩)
    (congrArg (·.1) hstep) rfl rfl hfree (congrArg (·.2.1.started) hstep)
  refine ⟨?_, ?_⟩
  · rw [Journey.lead_waiting_nil]
    exact goesBy_singleton ⟨rfl, hquiet, hid⟩
  · rw [Journey.lead_waiting_nil, effects_singleton, hstep]
    exact (Effects.append_empty _).symm

/-- **The steps of a launch that waits are what its journey says.** -/
theorem follows_lead {l : Launch} (ho : Orderly s.inFlight s) (hl : s.launch? ticket = some l)
    (os : List Occurrence) (scene : Scene) (before : Effects) :
    let h := ofLaunch ticket (Course.steps next s os)
    Follows ticket l.id l.name (Journey.lead l.id (.waiting l.preparation))
      ⟨scene, meetings h, before⟩ h := by
  -- The scene is that of the last step of this launch. Steps of others leave it, and the launch, as
  -- they are; a step of its own puts it where that step was taken.
  induction os generalizing s l scene before with
  | nil =>
    refine ⟨?_, ?_⟩
    · show GoesBy ticket l.id l.name [] (Journey.lead _ _ ⟨scene, [], before⟩)
      rw [Journey.lead_waiting_nil]
      exact goesBy_nil ..
    · show (Journey.behind (Journey.lead _ _ ⟨scene, [], before⟩)).effects = before ++ {}
      rw [Journey.lead_waiting_nil, Effects.append_empty]
      rfl
  | cons o os ih =>
    have hwithdrawn := ho.withdraw hl
    have hbegun : ticket < s.begun := hwithdrawn.ticket_lt (ticket, l.id) (List.mem_cons_self ..)
    have hnext := orderly_next ho o
    rw [ofLaunch_steps_cons]
    split
    · rename_i hown
      have hfree : s.tracked.get? l.id = none :=
        hwithdrawn.untracked (ticket, l.id) (List.mem_cons_self ..)
      have hgone : (s.withdraw ticket).launch? ticket = none := launch?_withdraw s ticket
      obtain ⟨w, now, e⟩ := o
      obtain ⟨_, -, ⟨time, arrival, rfl⟩ | rfl⟩ := exists_of_ticketOf? hbegun hown
      · have hrest := follows_advance (s := s.withdraw ticket) (next_resume hl w now time arrival)
          rfl rfl rfl hgone hbegun hfree os before fun p hp => ih hnext hp _ _
        exact hrest.congr (Journey.lead_waiting_cons ..) rfl
      · have hrest : ofLaunch ticket (Course.steps next (s.next ⟨w, now, .abandon ticket⟩).1 os) =
            [] :=
          ofLaunch_of_over (by rw [next_abandon hl]; exact hgone)
            (Nat.lt_of_lt_of_le hbegun (begun_next s _)) os
        rw [hrest]
        exact follows_abandon hl hfree w now scene before
    · rename_i hother
      exact ih hnext ((launch?_next hbegun hother).trans hl) scene before

theorem launch?_begun (ho : Orderly s.inFlight s) : s.launch? s.begun = none := by
  rw [launch?, List.find?_eq_none]
  intro l hl hticket
  have hlt : l.ticket < s.begun := ho.ticket_lt _ (List.mem_map_of_mem hl)
  exact Nat.ne_of_lt hlt (by simpa using hticket)

/-- **The steps of a launch are what its journey says**, from its beginning on. -/
theorem follows_start (ho : Orderly s.inFlight s) (w : Surroundings) (now : Moment) {id : TaskId}
    (name : String) (config : Config) (hid : s.isTaken id = false) (os : List Occurrence) :
    let h := ofLaunch s.begun (Course.steps next s (⟨w, now, .start id name config⟩ :: os))
    Follows s.begun id name (Journey.launch id name config) ⟨⟨w, s.starts⟩, meetings h, {}⟩ h := by
  have hown : s.ticketOf? (.start id name config) = some s.begun := by
    rw [ticketOf?, if_neg (by simp [hid])]
  have hstep : s.next ⟨w, now, .start id name config⟩ =
      advance w now { s.reserve id with begun := s.begun + 1 } s.begun id name
        (Preparation.start w.settings w.host config id name) := by
    show s.start w now id name config = _
    rw [start, if_neg (by simp [hid])]
  rw [ofLaunch_steps_cons, if_pos hown]
  have hsteps := follows_advance (s := { s.reserve id with begun := s.begun + 1 }) hstep rfl rfl rfl
    (launch?_begun ho) (Nat.lt_succ_self _) (ho.not_isTaken hid).2 os {} fun p hp =>
      follows_lead (orderly_next ho _) hp os _ _
  exact hsteps.congr (Journey.pursue_start name _).symm rfl

/-- **A launch in stages.** A launch whose id is reserved or tracked is refused, and changes nothing.
Any other launch, among whatever else happens, goes by as `Journey.launch` says, stage by stage, for
what it meets: it does outside what the stages do, with its calls in order; its steps leave the
tasks as they are and start no process, but for the last one if all stages are done; behind a last
step with which it fails or is given up, its id is free. When all stages are done, one process has
been started, with the arguments of the given configuration, in which nothing has changed but the
name of its machine, if there was none, and the path of its image. -/
theorem launch_in_stages (os more : List Occurrence) (w : Surroundings) (now : Moment) (id : TaskId)
    (name : String) (config : Config) :
    let s := after os
    let start : Occurrence := ⟨w, now, .start id name config⟩
    let h := ofLaunch s.begun (Course.steps next s (start :: more))
    let journey := Journey.launch id name config ⟨⟨w, s.starts⟩, meetings h, {}⟩
    (s.isTaken id = true → s.next start = (s, {}, .failed (.process (.idInUse id)))) ∧
      (s.isTaken id = false →
        effects h = (Journey.behind journey).effects ∧
          Journey.InOrder w.settings config (effects h).calls ∧
          GoesBy s.begun id name h journey ∧
          match journey with
          | .error halt _ => (effects h).started = [] ∧ ((effects h).starts = [] ∨
              ∃ arguments failure, (effects h).starts = [arguments] ∧
                halt = .failed (.process failure))
          | .ok a y => (∃ path,
              a.config =
                { Preparation.withMachine config id name with imagePath := some path } ∧
              a.config.argumentsAt y.scene.surroundings.host path = .ok a.arguments) ∧
            y.scene.surroundings.launcher y.scene.starts a.arguments = .ok a.process ∧
            (effects h).starts = [a.arguments] ∧
            (effects h).started = [⟨y.scene.starts, id, a.process⟩]) := by
  intro s start h journey
  have ho : Orderly s.inFlight s := orderly_after os
  refine ⟨fun hid => start_of_isTaken w now name config hid, fun hid => ?_⟩
  have hfollows := follows_start ho w now name config hid more
  have heffects : effects h = (Journey.behind journey).effects :=
    (hfollows.effects_eq.trans (Effects.empty_append _)).symm
  refine ⟨heffects, ?_, hfollows.goesBy, ?_⟩
  · obtain ⟨e, he, hadds⟩ := Journey.adds_launch id name config ⟨⟨w, s.starts⟩, meetings h, {}⟩
    rw [heffects, hadds, Effects.empty_append]
    exact he
  · rw [heffects]
    cases hj : journey with
    | error halt y => exact Journey.launch_eq_error hj
    | ok a y => exact Journey.launch_eq_ok hj

end Supervisor

end Capsule
