import Capsule.Proofs.Supervisor.Reservation

/-!
# What a step does to the tasks

Launches wait, go on and are given up, and most of that changes no task. `Books` is the part of a
supervisor that is about tasks, and `Move` lists all that a step can do to it: nothing, one task
goes on, a process is started and its task tracked, or a task that has ended is no longer tracked.
What is proved of tasks is proved by these four cases, and does not look into the steps again.

A move says what the step gives back as well. An outcome that speaks of a task's beginning or end
comes from the move that makes it true, and from no other; `Outcome.IsQuiet` is the absence of
both.

## Main definitions

* `Supervisor.books`, `Move`

## Main results

* `Supervisor.move_next`: every step of an orderly supervisor is a move
* `Supervisor.move_invariant`: what moves keep holds behind every course
-/

namespace Capsule

/-- The part of a supervisor that is about tasks. -/
structure Books where
  tasks : List Task
  tracked : TextMap Nat
  starts : Nat

/-- An outcome that says neither that a task has been launched nor that one has been removed. -/
def Outcome.IsQuiet : Outcome → Prop
  | .launched _ => False
  | .removed _ => False
  | _ => True

theorem Outcome.isQuiet_ofResponse (r : Task.Response) : (Outcome.ofResponse r).IsQuiet := by
  cases r with
  | signalled sent => cases sent <;> trivial
  | _ => trivial

/-- What an event can do to the books at a time. -/
inductive Move (now : Moment) : Event → Books → Books → Effects → Outcome → Prop
  /-- No task changes. A start may have failed. -/
  | idle {e : Event} {b : Books} {n : Nat} {effects : Effects} {outcome : Outcome}
      (starts_le : b.starts ≤ n) (started : effects.started = []) (quiet : outcome.IsQuiet) :
      Move now e b { b with starts := n } effects outcome
  /-- Something happens to one task. -/
  | touched {e : Event} {b : Books} {position : Nat} {t : Task} {te : Task.Event}
      {effects : Effects} {outcome : Outcome} (task : b.tasks[position]? = some t)
      (started : effects.started = []) (quiet : outcome.IsQuiet) :
      Move now e b { b with tasks := b.tasks.set position (t.step now te).1 } effects outcome
  /-- A process is started, and its task tracked under a free id. -/
  | launched {e : Event} {b : Books} {id : TaskId} {name machine : String} {process : Child}
      {effects : Effects} (free : b.tracked.get? id = none)
      (started : effects.started = [⟨b.starts, id, process⟩]) :
      Move now e b
        ⟨b.tasks ++ [(Task.ofStart b.starts id name machine process now).monitor.1],
          b.tracked.insert id b.tasks.length, b.starts + 1⟩
        effects (.launched b.tasks.length)
  /-- A task that has ended is no longer tracked. -/
  | removed {b : Books} {id : TaskId} {position : Nat} {t : Task} {effects : Effects}
      (position_eq : b.tracked.get? id = some position) (task : b.tasks[position]? = some t)
      (ended : t.isRunning = false) (started : effects.started = []) :
      Move now (.remove id) b { b with tracked := b.tracked.erase id } effects
        (.removed t.status)

namespace Supervisor

variable {s : Supervisor}

/-- The part of a supervisor that is about tasks. -/
def books (s : Supervisor) : Books := ⟨s.tasks, s.tracked, s.starts⟩

theorem task?_eq_some_iff {id : TaskId} {position : Nat} {t : Task} :
    s.task? id = some (position, t) ↔
      s.tracked.get? id = some position ∧ s.tasks[position]? = some t := by
  simp only [task?, Option.bind_eq_bind, Option.bind_eq_some_iff, Option.pure_def,
    Option.some.injEq, Prod.mk.injEq]
  constructor
  · rintro ⟨p, hp, u, hu, rfl, rfl⟩
    exact ⟨hp, hu⟩
  · rintro ⟨hp, hu⟩
    exact ⟨position, hp, t, hu, rfl, rfl⟩

/-- A step that touches neither tasks nor starts. -/
theorem move_idle (now : Moment) (e : Event) {s' : Supervisor} {effects : Effects}
    {outcome : Outcome} (hb : s'.books = s.books) (hs : effects.started = [])
    (hq : outcome.IsQuiet) : Move now e s.books s'.books effects outcome := by
  rw [hb]
  exact .idle (n := s.starts) (Nat.le_refl _) hs hq

theorem move_launch (w : Surroundings) (now : Moment) (e : Event) {id : TaskId}
    (hfree : s.tracked.get? id = none) (name : String) (config : Config)
    (arguments : List String) (calls : List Call) (reports : List Progress) :
    let r := launch w now s id name config arguments
    Move now e s.books (r.1.release id).books
      { calls, reports, starts := r.2.1.starts, started := r.2.1.started } r.2.2 := by
  intro r
  cases h : w.launcher s.starts arguments with
  | error failure =>
    simp only [r, launch, h]
    exact .idle (Nat.le_succ _) rfl trivial
  | ok process =>
    simp only [r, launch, h]
    exact .launched (b := s.books) hfree rfl

theorem move_advance (w : Surroundings) (now : Moment) (e : Event) (ticket : Nat) {id : TaskId}
    (hfree : s.tracked.get? id = none) (name : String) (a : Advance) :
    let r := advance w now s ticket id name a
    Move now e s.books r.1.books r.2.1 r.2.2 := by
  intro r
  cases h : a.status with
  | failed error =>
    simp only [r, advance, h]
    exact move_idle now e rfl rfl trivial
  | waiting p =>
    simp only [r, advance, h]
    exact move_idle now e rfl rfl trivial
  | ready config arguments =>
    simp only [r, advance, h]
    exact move_launch w now e hfree name config arguments _ _

theorem move_touch (now : Moment) (e : Event) (position : Nat) (te : Task.Event) :
    let r := s.touch now position te
    Move now e s.books r.1.books r.2.1 r.2.2 := by
  intro r
  cases h : s.tasks[position]? with
  | none =>
    simp only [r, touch, h]
    exact move_idle now e rfl rfl trivial
  | some t =>
    simp only [r, touch, h]
    exact .touched (b := s.books) h rfl (Outcome.isQuiet_ofResponse _)

theorem move_start (ho : Orderly s.inFlight s) (w : Surroundings) (now : Moment) (e : Event)
    (id : TaskId) (name : String) (config : Config) :
    let r := s.start w now id name config
    Move now e s.books r.1.books r.2.1 r.2.2 := by
  intro r
  cases hid : s.isTaken id with
  | true =>
    simp only [r, start, hid]
    exact move_idle now e rfl rfl trivial
  | false =>
    simp only [r, start, hid]
    exact move_advance (s := { s.reserve id with begun := s.begun + 1 }) w now e s.begun
      (ho.not_isTaken hid).2 name _

theorem move_resume (ho : Orderly s.inFlight s) (w : Surroundings) (now : Moment) (e : Event)
    (time ticket : Nat) (arrival : Arrival) :
    let r := s.resume w now time ticket arrival
    Move now e s.books r.1.books r.2.1 r.2.2 := by
  intro r
  cases hl : s.launch? ticket with
  | none =>
    simp only [r, resume, hl]
    exact move_idle now e rfl rfl trivial
  | some l =>
    have hfree : s.tracked.get? l.id = none :=
      (ho.withdraw hl).untracked (ticket, l.id) (List.mem_cons_self ..)
    simp only [r, resume, hl]
    exact move_advance (s := s.withdraw ticket) w now e ticket hfree l.name _

/-- A removal is refused where no task is found, and where the task that is found is running. -/
theorem remove_cases (s : Supervisor) (id : TaskId) :
    (s.task? id = none ∧ s.remove id = (s, {}, .failed (.missing .task id))) ∨
      ∃ position t, s.task? id = some (position, t) ∧
        ((t.isRunning = true ∧
            s.remove id = (s, {}, .failed (.process (.stillRunning id)))) ∨
          (t.isRunning = false ∧
            s.remove id = ({ s with tracked := s.tracked.erase id }, {}, .removed t.status))) := by
  rw [remove]
  cases hs : s.task? id with
  | none => exact .inl ⟨rfl, rfl⟩
  | some e =>
    obtain ⟨position, t⟩ := e
    refine .inr ⟨position, t, rfl, ?_⟩
    cases hr : t.isRunning with
    | true => exact .inl ⟨rfl, by simp [hr]⟩
    | false => exact .inr ⟨rfl, by simp [hr]⟩

theorem move_remove (now : Moment) (id : TaskId) :
    let r := s.remove id
    Move now (.remove id) s.books r.1.books r.2.1 r.2.2 := by
  intro r
  rcases remove_cases s id with ⟨-, hr⟩ | ⟨position, t, ht, ⟨-, hr⟩ | ⟨hrun, hr⟩⟩
  · simp only [r, hr]
    exact move_idle now _ rfl rfl trivial
  · simp only [r, hr]
    exact move_idle now _ rfl rfl trivial
  · obtain ⟨hp, htask⟩ := task?_eq_some_iff.mp ht
    simp only [r, hr]
    exact .removed (b := s.books) hp htask hrun rfl

/-- **Every step of an orderly supervisor is a move.** -/
theorem move_next (ho : Orderly s.inFlight s) (o : Occurrence) :
    Move o.now o.event s.books (s.next o).1.books (s.next o).2.1 (s.next o).2.2 := by
  obtain ⟨w, now, e⟩ := o
  cases e with
  | start id name config => exact move_start ho w now _ id name config
  | resume ticket time arrival => exact move_resume ho w now _ time ticket arrival
  | abandon ticket =>
    refine move_idle now _ ?_ rfl trivial
    show (s.abandon ticket).books = s.books
    rw [abandon]
    split <;> rfl
  | signal id signal reply =>
    have hnext : s.next ⟨w, now, .signal id signal reply⟩ = s.signal now id signal reply := rfl
    rw [hnext, Supervisor.signal]
    split
    · exact move_idle now _ rfl rfl trivial
    · exact move_touch now _ _ _
  | remove id => exact move_remove now id
  | find id => exact move_idle now _ rfl rfl trivial
  | list => exact move_idle now _ rfl rfl trivial
  | task position e => exact move_touch now _ position e

/-- **Invariants of moves.** What every move keeps, of the steps so far and of the books, holds
behind every course of an orderly supervisor. -/
theorem move_invariant {P : History → Books → Prop} (ho : Orderly s.inFlight s)
    (start : P [] s.books)
    (keep : ∀ h t o, Move o.now o.event t.books (next t o).1.books (next t o).2.1 (next t o).2.2 →
      P h t.books → P (h ++ [⟨t, o, (next t o).2⟩]) (next t o).1.books) (os : List Occurrence) :
    P (Course.steps next s os) (Course.final next s os).books := by
  have key := Course.invariant next (P := fun h t => Orderly t.inFlight t ∧ P h t.books)
    ⟨ho, start⟩ ?_ os
  · exact key.2
  · rintro h t o ⟨ht, hP⟩
    exact ⟨orderly_next ht o, keep h t o (move_next ht o) hP⟩

end Supervisor

end Capsule
