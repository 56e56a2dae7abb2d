import Capsule.Proofs.Supervisor.Exclusion
import Capsule.Proofs.Task.Lifecycle

/-!
# No task is lost

A process that nobody tracks can be neither signalled nor waited for. This file proves that there is
none: `Supervisor.no_task_lost_or_invented`.

## The ledger

Tasks are kept at positions and looked up by ids, and a process that was started is known by the
number of its start. `Ledger` says that the three agree: read in order, the processes that the tasks
own are those that were started; the numbers of the starts ascend, so that no process is owned
twice; and the task that is found under an id bears that id. It also says that every task is one
that can come about, so that all that is proved of tasks on their own holds of it.

What follows a launch is not in the ledger. Behind its launch a task is found until its id is
removed and never again, and that is proved of the course that follows.

## Main definitions

* `Task.owned`, `Ledger`: the books of a supervisor and the processes that were started

## Main results

* `Move.ledger`, `Supervisor.ledger_after`: the ledger is right behind every course
* `Supervisor.task_course`: what happens to a supervisor's task is a course of that task
* `Supervisor.tracked_final`: a task is found under its id until the id is removed
* `Supervisor.remove_eq_removed_iff`: when a removal gives a task back
* `Supervisor.no_task_lost_or_invented`: all of these together
-/

namespace Capsule

/-- The process that a task owns, as it was started. -/
def Task.owned (t : Task) : Started := ⟨t.origin, t.id, t.process⟩

theorem Task.owned_step (t : Task) (now : Moment) (e : Task.Event) :
    (t.step now e).1.owned = t.owned := by
  rw [Task.owned, Task.owned, Task.origin_step, Task.id_step, Task.process_step]

theorem Task.owned_final (t : Task) (is : List (Moment × Task.Event)) :
    (Course.final Task.next t is).owned = t.owned :=
  Course.final_invariant Task.next (P := fun u => u.owned = t.owned) rfl
    (fun u i hu => (u.owned_step i.1 i.2).trans hu) is

/-- Books that agree with the processes that were started. -/
structure Ledger (es : List Started) (b : Books) : Prop where
  owned_eq : b.tasks.map Task.owned = es
  number_lt : ∀ e ∈ es, e.number < b.starts
  ascending : es.Pairwise fun e e' => e.number < e'.number
  reachable : ∀ t ∈ b.tasks, t.Reachable
  found : ∀ id position, b.tracked.get? id = some position →
    ∃ t, b.tasks[position]? = some t ∧ t.id = id

variable {now : Moment} {e : Event} {b b' : Books} {effects : Effects} {outcome : Outcome}

/-! ### What a move does to a task -/

/-- A task stays at its position, and goes on by steps of its own. -/
theorem Move.task_course (m : Move now e b b' effects outcome) {position : Nat} {t : Task}
    (ht : b.tasks[position]? = some t) :
    ∃ is, b'.tasks[position]? = some (Course.final Task.next t is) := by
  cases m with
  | idle => exact ⟨[], ht⟩
  | @touched _ _ p u te _ _ hu =>
    by_cases hp : p = position
    · subst hp
      obtain rfl : u = t := Option.some.inj (hu.symm.trans ht)
      refine ⟨[(now, te)], ?_⟩
      rw [List.getElem?_set_self (List.getElem?_eq_some_iff.mp ht).1]
      rfl
    · exact ⟨[], by rw [List.getElem?_set_ne hp]; exact ht⟩
  | launched =>
    refine ⟨[], ?_⟩
    rw [List.getElem?_append_left (List.getElem?_eq_some_iff.mp ht).1]
    exact ht
  | removed => exact ⟨[], ht⟩

/-- A process that is started is owned by a task that is found under the id of its launch, and the
launch gives that task back. -/
theorem Move.launched_of_started (m : Move now e b b' effects outcome) {x : Started}
    (hx : x ∈ effects.started) :
    ∃ position t, outcome = .launched position ∧ b'.tasks[position]? = some t ∧ t.owned = x ∧
      b'.tracked.get? x.id = some position := by
  cases m with
  | idle _ hs => simp [hs] at hx
  | touched _ hs => simp [hs] at hx
  | removed _ _ _ hs => simp [hs] at hx
  | launched _ hs =>
    rw [hs, List.mem_singleton] at hx
    subst hx
    refine ⟨_, _, rfl, List.getElem?_concat_length, rfl, ?_⟩
    rw [TextMap.get?_insert, if_pos rfl]

/-- A task that is found under an id is found there until the id is removed; and one that is not
found there is not found there again. -/
theorem Move.tracked_iff (m : Move now e b b' effects outcome) {id : TaskId} {position : Nat}
    (hp : position < b.tasks.length) :
    b'.tracked.get? id = some position ↔ b.tracked.get? id = some position ∧
      ¬ (e = .remove id ∧ ∃ status, outcome = .removed status) := by
  cases m with
  | idle _ _ hq =>
    refine ⟨fun h => ⟨h, ?_⟩, And.left⟩
    rintro ⟨-, status, rfl⟩
    exact hq
  | touched _ _ hq =>
    refine ⟨fun h => ⟨h, ?_⟩, And.left⟩
    rintro ⟨-, status, rfl⟩
    exact hq
  | @launched _ _ id' _ _ _ _ hfree =>
    rw [TextMap.get?_insert]
    by_cases hid : id = id'
    · subst hid
      simp only [if_true, hfree, Option.some.injEq]
      constructor
      · rintro rfl
        exact absurd hp (Nat.lt_irrefl _)
      · rintro ⟨h, -⟩
        cases h
    · simp [hid]
  | @removed _ id' =>
    rw [TextMap.get?_erase]
    by_cases hid : id = id'
    · simp [hid]
    · simp [hid, Ne.symm hid]

/-! ### The ledger -/

/-- A move adds an owner for what it has started, and takes none away. -/
theorem Move.map_owned (m : Move now e b b' effects outcome) :
    b'.tasks.map Task.owned = b.tasks.map Task.owned ++ effects.started := by
  cases m with
  | idle _ hs => rw [hs, List.append_nil]
  | touched hu hs =>
    obtain ⟨hlt, rfl⟩ := List.getElem?_eq_some_iff.mp hu
    rw [hs, List.append_nil, List.map_set, Task.owned_step, ← List.map_set, List.set_getElem_self]
  | launched _ hs =>
    rw [hs, List.map_append]
    rfl
  | removed _ _ _ hs => rw [hs, List.append_nil]

/-- Starts are numbered in the order in which they are made. -/
theorem Move.numbers (m : Move now e b b' effects outcome) :
    b.starts ≤ b'.starts ∧
      (∀ x ∈ effects.started, b.starts ≤ x.number ∧ x.number < b'.starts) ∧
        effects.started.Pairwise fun x y => x.number < y.number := by
  cases m with
  | idle hn hs => simp [hs, hn]
  | touched _ hs => simp [hs]
  | launched _ hs => simp [hs]
  | removed _ _ _ hs => simp [hs]

theorem Move.reachable (m : Move now e b b' effects outcome) (hr : ∀ t ∈ b.tasks, t.Reachable) :
    ∀ t ∈ b'.tasks, t.Reachable := by
  cases m with
  | idle => exact hr
  | @touched _ _ _ u te _ _ hu =>
    intro t ht
    rcases List.mem_or_eq_of_mem_set ht with h | rfl
    · exact hr t h
    · exact (hr u (List.mem_of_getElem? hu)).step now te
  | @launched _ _ id name machine process =>
    intro t ht
    rcases List.mem_append.mp ht with ht | ht
    · exact hr t ht
    · rw [List.mem_singleton.mp ht]
      exact ⟨b.starts, id, name, machine, process, now, [(now, .monitor)], rfl⟩
  | removed => exact hr

/-- What is found under an id was found there before, or has been launched there just now. -/
theorem Move.found_cases (m : Move now e b b' effects outcome) {id : TaskId} {position : Nat}
    (h : b'.tracked.get? id = some position) :
    b.tracked.get? id = some position ∨ ∃ t, b'.tasks[position]? = some t ∧ t.id = id := by
  cases m with
  | idle => exact .inl h
  | touched => exact .inl h
  | @launched _ _ id' =>
    rw [TextMap.get?_insert] at h
    by_cases hid : id = id'
    · rw [if_pos hid] at h
      cases h
      exact .inr ⟨_, List.getElem?_concat_length, hid.symm⟩
    · rw [if_neg hid] at h
      exact .inl h
  | @removed _ id' =>
    rw [TextMap.get?_erase] at h
    by_cases hid : id = id'
    · rw [if_pos hid] at h
      cases h
    · rw [if_neg hid] at h
      exact .inl h

/-- **A move keeps the ledger.** -/
theorem Move.ledger {es : List Started} (hl : Ledger es b)
    (m : Move now e b b' effects outcome) : Ledger (es ++ effects.started) b' := by
  obtain ⟨hstarts, hnumbers, hascending⟩ := m.numbers
  refine ⟨?_, ?_, ?_, m.reachable hl.reachable, ?_⟩
  · rw [m.map_owned, hl.owned_eq]
  · intro x hx
    rcases List.mem_append.mp hx with hx | hx
    · exact Nat.lt_of_lt_of_le (hl.number_lt x hx) hstarts
    · exact (hnumbers x hx).2
  · refine List.pairwise_append.mpr ⟨hl.ascending, hascending, ?_⟩
    intro x hx y hy
    exact Nat.lt_of_lt_of_le (hl.number_lt x hx) (hnumbers y hy).1
  · intro id position h
    rcases m.found_cases h with h | h
    · obtain ⟨t, ht, hid⟩ := hl.found id position h
      obtain ⟨is, his⟩ := m.task_course ht
      exact ⟨_, his, (congrArg Started.id (t.owned_final is)).trans hid⟩
    · exact h

namespace Ledger

variable {es : List Started}

/-- A process that was started has one owner. -/
theorem existsUnique_owner (hl : Ledger es b) {x : Started} (hx : x ∈ es) :
    ∃! position : Nat, (b.tasks[position]?).map Task.owned = some x := by
  have hget : ∀ position : Nat, (b.tasks[position]?).map Task.owned = es[position]? := by
    intro position
    rw [← hl.owned_eq, List.getElem?_map]
  obtain ⟨position, hp⟩ := List.mem_iff_getElem?.mp hx
  refine ⟨position, (hget position).trans hp, fun q hq => ?_⟩
  have hnodup : es.Nodup := hl.ascending.imp fun h he => absurd (he ▸ h) (Nat.lt_irrefl _)
  have hq := (hget q).symm.trans hq
  exact (List.getElem?_inj (List.getElem?_eq_some_iff.mp hq).1 hnodup).mp (hq.trans hp.symm)

/-- A task owns a process that was started. -/
theorem owned_mem (hl : Ledger es b) {t : Task} (ht : t ∈ b.tasks) : t.owned ∈ es :=
  hl.owned_eq ▸ List.mem_map_of_mem ht

end Ledger

namespace Supervisor

variable {s : Supervisor}

/-- **The ledger is right behind every course.** -/
theorem ledger_after (os : List Occurrence) : Ledger (started (history os)) (after os).books := by
  refine move_invariant orderly_init (P := fun h b => Ledger (started h) b) ?_ ?_ os
  · exact ⟨rfl, by simp [started], .nil, by simp [books], by simp [books]⟩
  · intro h t o m hl
    rw [started_concat]
    exact m.ledger hl

/-! ### What follows -/

/-- **What happens to a task of a supervisor is a course of that task**, at the position at which it
has been from the beginning. -/
theorem task_course (ho : Orderly s.inFlight s) {position : Nat} {t : Task}
    (ht : s.tasks[position]? = some t) (os : List Occurrence) :
    ∃ is, (Course.final next s os).tasks[position]? = some (Course.final Task.next t is) := by
  refine move_invariant ho
    (P := fun _ b => ∃ is, b.tasks[position]? = some (Course.final Task.next t is)) ⟨[], ht⟩ ?_ os
  rintro h u o m ⟨is, his⟩
  obtain ⟨is', his'⟩ := m.task_course his
  refine ⟨is ++ is', ?_⟩
  rw [Course.final_append]
  exact his'

/-- **A task is found under its id until the id is removed**, and not found there again behind
that. -/
theorem tracked_final (ho : Orderly s.inFlight s) {id : TaskId} {position : Nat}
    (hp : position < s.tasks.length) (ht : s.tracked.get? id = some position)
    (os : List Occurrence) :
    (Course.final next s os).tracked.get? id = some position ↔
      ∀ r ∈ Course.steps next s os, ¬ Removes id r := by
  have key := move_invariant ho (P := fun h b => position < b.tasks.length ∧
    (b.tracked.get? id = some position ↔ ∀ r ∈ h, ¬ Removes id r)) ⟨hp, by simp [books, ht]⟩ ?_ os
  · exact key.2
  · rintro h u o m ⟨hlt, hiff⟩
    refine ⟨?_, ?_⟩
    · obtain ⟨is, his⟩ := m.task_course (List.getElem?_eq_getElem hlt)
      exact (List.getElem?_eq_some_iff.mp his).1
    · refine (m.tracked_iff hlt).trans ?_
      rw [List.forall_mem_append, List.forall_mem_singleton, ← hiff]
      rfl

/-! ### What is shown -/

/-- A task is found under an id, and this is shown of it. -/
def Shows (s : Supervisor) (id : TaskId) (status : TaskStatus) : Prop :=
  ∃ position t, s.tracked.get? id = some position ∧ s.tasks[position]? = some t ∧
    t.status = status

theorem shows_iff {id : TaskId} {status : TaskStatus} :
    s.Shows id status ↔
      ∃ position t, s.task? id = some (position, t) ∧ t.status = status := by
  simp only [Shows, task?_eq_some_iff, and_assoc]

/-- A tracked id shows a task, and the task shows that id. -/
theorem shows_of_tracked {es : List Started} (hl : Ledger es s.books) {id : TaskId}
    (h : (s.tracked.get? id).isSome = true) : ∃ status, s.Shows id status ∧ status.id = id := by
  obtain ⟨position, hp⟩ := Option.isSome_iff_exists.mp h
  obtain ⟨t, ht, hid⟩ := hl.found id position hp
  exact ⟨t.status, ⟨position, t, hp, ht, rfl⟩, hid⟩

/-- A task that has ended shows when and how, and shows the same for good. -/
theorem final_of_shows {es : List Started} (ho : Orderly s.inFlight s) (hl : Ledger es s.books)
    {id : TaskId} {status : TaskStatus} (h : s.Shows id status)
    (hterminal : status.state.isTerminal = true) :
    status.completedAt.isSome = true ∧ status.result.isSome = true ∧
      ∃ position, s.tracked.get? id = some position ∧ ∀ more,
        ((Course.final next s more).tasks[position]?).map Task.status = some status := by
  obtain ⟨position, t, hp, ht, rfl⟩ := h
  have hr := (hl.reachable t (List.mem_of_getElem? ht)).isSome_of_terminal hterminal
  refine ⟨hr.1, hr.2, position, hp, fun more => ?_⟩
  obtain ⟨is, his⟩ := task_course ho ht more
  rw [his, Option.map_some, Task.final_status_of_terminal hterminal]

/-! ### Removal -/

/-- A removal gives back what is shown of a task that has ended, and gives back nothing else. -/
theorem remove_eq_removed_iff (s : Supervisor) (id : TaskId) (status : TaskStatus) :
    (s.remove id).2.2 = .removed status ↔
      s.Shows id status ∧ status.state.isTerminal = true := by
  rw [shows_iff]
  rcases remove_cases s id with ⟨hn, hr⟩ | ⟨position, t, ht, ⟨hrun, hr⟩ | ⟨hrun, hr⟩⟩
  · rw [hr, hn]
    simp
  · rw [Task.isRunning_eq_not_isTerminal] at hrun
    rw [hr, ht]
    constructor
    · intro h
      cases h
    · rintro ⟨⟨p, u, hu, rfl⟩, hterminal⟩
      cases hu
      simp [hterminal] at hrun
  · rw [Task.isRunning_eq_not_isTerminal] at hrun
    rw [hr, ht]
    constructor
    · intro h
      cases h
      exact ⟨⟨position, t, rfl, rfl⟩, by simpa using hrun⟩
    · rintro ⟨⟨p, u, hu, rfl⟩, -⟩
      cases hu
      rfl

/-- A removal that gives nothing back is refused, and changes nothing. -/
theorem remove_of_not_removed (s : Supervisor) (id : TaskId)
    (h : ∀ status, (s.remove id).2.2 ≠ .removed status) :
    (s.remove id).1 = s ∧ ∃ error, (s.remove id).2.2 = .failed error := by
  rcases remove_cases s id with ⟨-, hr⟩ | ⟨-, t, -, ⟨-, hr⟩ | ⟨-, hr⟩⟩
  · rw [hr]
    exact ⟨rfl, _, rfl⟩
  · rw [hr]
    exact ⟨rfl, _, rfl⟩
  · exact absurd (congrArg (·.2.2) hr) (h t.status)

/-! ### The list of tasks -/

/-- The tasks are listed in the order in which they are tracked. -/
theorem pairwise_tracked_statuses {es : List Started} (hl : Ledger es s.books) :
    (s.tracked.toList.filterMap fun e => (s.tasks[e.2]?).map Task.status).Pairwise
      fun a b => a.id < b.id := by
  rw [List.pairwise_filterMap]
  have hid : ∀ e ∈ s.tracked.toList, ∀ status,
      (s.tasks[e.2]?).map Task.status = some status → status.id = e.1 := by
    intro e he status h
    obtain ⟨t, ht, hid⟩ := hl.found e.1 e.2 (TextMap.mem_toList_iff.mp he)
    rw [show s.tasks[e.2]? = some t from ht] at h
    cases h
    exact hid
  refine s.tracked.sorted.imp_of_mem ?_
  intro e e' he he' hlt a ha b hb
  rw [hid e he a ha, hid e' he' b hb]
  exact hlt

theorem statuses_eq {es : List Started} (hl : Ledger es s.books) :
    s.statuses = s.tracked.toList.filterMap fun e => (s.tasks[e.2]?).map Task.status :=
  List.mergeSort_of_pairwise <| (pairwise_tracked_statuses hl).imp fun h =>
    decide_eq_true (String.not_lt.mp (String.lt_asymm h))

theorem mem_statuses_iff {status : TaskStatus} :
    status ∈ s.statuses ↔ ∃ id, s.Shows id status := by
  simp only [statuses, List.mem_mergeSort, List.mem_filterMap, Prod.exists, TextMap.mem_toList_iff,
    Option.map_eq_some_iff, Shows]
  constructor
  · rintro ⟨id, position, hp, t, ht, rfl⟩
    exact ⟨id, position, t, hp, ht, rfl⟩
  · rintro ⟨id, position, t, hp, ht, rfl⟩
    exact ⟨id, position, hp, t, ht, rfl⟩

/-! ### What is started -/

theorem started_advance (w : Surroundings) (now : Moment) (s : Supervisor) (ticket : Nat)
    (id : TaskId) (name : String) (a : Advance) :
    let effects := (advance w now s ticket id name a).2.1
    effects.started.map (·.process) =
      effects.starts.filterMap fun arguments => (w.launcher s.starts arguments).toOption := by
  intro effects
  cases h : a.status with
  | failed error => simp [effects, advance, h]
  | waiting p => simp [effects, advance, h]
  | ready config arguments =>
    cases hw : w.launcher s.starts arguments with
    | error failure => simp [effects, advance, h, launch, hw, Except.toOption]
    | ok process => simp [effects, advance, h, launch, hw, Except.toOption]

/-- The processes that a step has started are those that the launcher has given. -/
theorem started_next (s : Supervisor) (o : Occurrence) :
    (s.next o).2.1.started.map (·.process) =
      (s.next o).2.1.starts.filterMap fun arguments =>
        (o.surroundings.launcher s.starts arguments).toOption := by
  obtain ⟨w, now, e⟩ := o
  cases e with
  | start id name config =>
    rw [next, step, start]
    cases s.isTaken id
    · exact started_advance w now { s.reserve id with begun := s.begun + 1 } s.begun id name _
    · rfl
  | resume ticket time arrival =>
    rw [next, step, resume]
    split
    · rfl
    · exact started_advance w now (s.withdraw ticket) ticket _ _ _
  | signal id signal reply =>
    rw [next, step, Supervisor.signal]
    split
    · rfl
    · rw [touch]
      split <;> rfl
  | task position e =>
    rw [next, step, touch]
    split <;> rfl
  | remove id =>
    rw [next, step]
    rcases remove_cases s id with ⟨-, hr⟩ | ⟨_, _, -, ⟨-, hr⟩ | ⟨-, hr⟩⟩ <;> rw [hr] <;> rfl
  | abandon ticket => rfl
  | find id => rfl
  | list => rfl

/-! ### Every task, from its start to its removal -/

/-- **No task is lost or invented.** Behind every course:

* what a step has started is what the launcher has given;
* every process that was started is owned by one task, and every task owns such a process;
* a tracked id leads to a task that bears it;
* a step that starts a process is the end of a launch, gives back the task that owns the process,
  and has it tracked under the id of the launch from then on, until that id is removed;
* a removal gives back what is shown of the task, if that has ended; it shows an end and an outcome,
  and will not change. Otherwise the removal fails and changes nothing;
* the list shows the tracked tasks, in the order of their ids. -/
theorem no_task_lost_or_invented (os : List Occurrence) :
    let s := after os
    (∀ o, (s.next o).2.1.started.map (·.process) =
        (s.next o).2.1.starts.filterMap fun arguments =>
          (o.surroundings.launcher s.starts arguments).toOption) ∧
      (∀ x ∈ started (history os),
        ∃! position : Nat, (s.tasks[position]?).map Task.owned = some x) ∧
      (∀ t ∈ s.tasks, t.owned ∈ started (history os)) ∧
      (∀ id, (s.tracked.get? id).isSome = true → ∃ status, s.Shows id status ∧ status.id = id) ∧
      (∀ o, ∀ x ∈ (s.next o).2.1.started, ∃ position, (s.next o).2.2 = .launched position ∧
        ∀ more,
          ((Course.final next (s.next o).1 more).tasks[position]?).map Task.owned = some x ∧
            ((Course.final next (s.next o).1 more).tracked.get? x.id = some position ↔
              ∀ r ∈ Course.steps next (s.next o).1 more, ¬ Removes x.id r)) ∧
      (∀ w now id,
        (∀ status, (s.step w now (.remove id)).2.2 = .removed status ↔
          s.Shows id status ∧ status.state.isTerminal = true) ∧
        ((∀ status, (s.step w now (.remove id)).2.2 ≠ .removed status) →
          (s.step w now (.remove id)).1 = s ∧
            ∃ error, (s.step w now (.remove id)).2.2 = .failed error)) ∧
      (∀ id status, s.Shows id status → status.state.isTerminal = true →
        status.completedAt.isSome = true ∧ status.result.isSome = true ∧
          ∃ position, s.tracked.get? id = some position ∧ ∀ more,
            ((Course.final next s more).tasks[position]?).map Task.status = some status) ∧
      (∀ w now, s.step w now .list = (s, {}, .listed s.statuses)) ∧
      s.statuses.Pairwise (fun a b => a.id < b.id) ∧
      ∀ status, status ∈ s.statuses ↔ ∃ id, s.Shows id status := by
  intro s
  have ho : Orderly s.inFlight s := orderly_after os
  have hl : Ledger (started (history os)) s.books := ledger_after os
  refine ⟨started_next s, fun x hx => hl.existsUnique_owner hx, fun t ht => hl.owned_mem ht,
    fun id h => shows_of_tracked hl h, ?_, fun w now id => ⟨fun status => ?_, fun h => ?_⟩,
    fun id status h hterminal => final_of_shows ho hl h hterminal, fun w now => rfl, ?_,
    fun status => mem_statuses_iff⟩
  · intro o x hx
    obtain ⟨position, t, hout, ht, rfl, htracked⟩ := (move_next ho o).launched_of_started hx
    have ho' := orderly_next ho o
    refine ⟨position, hout, fun more => ⟨?_, ?_⟩⟩
    · obtain ⟨is, his⟩ := task_course ho' ht more
      rw [his, Option.map_some, Task.owned_final]
    · exact tracked_final ho' (List.getElem?_eq_some_iff.mp ht).1 htracked more
  · exact remove_eq_removed_iff s id status
  · exact remove_of_not_removed s id h
  · rw [statuses_eq hl]
    exact pairwise_tracked_statuses hl

end Supervisor

end Capsule
