import Capsule.Proofs.Supervisor.Naming

/-!
# Tasks apart

All tasks of a supervisor share one map, one list of reserved ids and one launcher, and anyone may
hold on to a task whose id has long been given to another. This file proves that they do not get in
each other's way: what happens under one id leaves everything else as it was.

## What an event concerns

An event names an id, or a launch that waits, or the position of a task, and each of these belongs
to one id: `Supervisor.concerns?`. A launch is named by its ticket, so that isolation rests on
tickets telling launches apart (`Orderly`); and what is found under an id is a task of that id
because the ledger is right (`Ledger`). Neither is a matter of the step that is looked at, and both
hold behind every course.

Under one id, too, tasks are kept apart, by their positions. The one that is found is that of the
last process that was started for the id; those before it are no longer found, and whoever holds one
reaches its own process and no other.

## Main definitions

* `Supervisor.concerns?`: the id that an event is about
* `Supervisor.Leaves`, `Supervisor.Spares`: everything under an id is as it was, and nothing was
  done to it
* `Latest`: the task that is found owns the last process that was started

## Main results

* `Supervisor.spares_next`: a step spares every id that it does not concern
* `Supervisor.leaves_course`: a course leaves every id as it was that none of its steps concerns
* `Supervisor.latest_after`: what is found under an id owns the last process started for it
* `Supervisor.tasks_apart`: all of these together
-/

namespace Capsule

/-- The task that is found under an id bears it. -/
theorem Ledger.id_eq {es : List Started} {b : Books} (hl : Ledger es b) {id : TaskId}
    {position : Nat} {t : Task} (hp : b.tracked.get? id = some position)
    (ht : b.tasks[position]? = some t) : t.id = id := by
  obtain ⟨t', ht', hid⟩ := hl.found id position hp
  rwa [Option.some.inj (ht.symm.trans ht')]

namespace Supervisor

variable {s t u : Supervisor} {id other : TaskId} {ticket : Nat}

/-- The id that an event is about, if there is one. -/
def concerns? (s : Supervisor) : Event → Option TaskId
  | .start id _ _ => some id
  | .resume ticket _ _ => (s.launch? ticket).map (·.id)
  | .abandon ticket => (s.launch? ticket).map (·.id)
  | .signal id _ _ => some id
  | .remove id => some id
  | .find id => some id
  | .list => none
  | .task position _ => (s.tasks[position]?).map (·.id)

/-- Everything under an id is as it was: the launches that wait, whether it is reserved, which task
is found there, and all its tasks. -/
structure Leaves (other : TaskId) (s t : Supervisor) : Prop where
  launches : t.launches.filter (·.id = other) = s.launches.filter (·.id = other)
  reserved : other ∈ t.reserved ↔ other ∈ s.reserved
  tracked : t.tracked.get? other = s.tracked.get? other
  tasks (position : Nat) (task : Task) (h : task.id = other) :
    t.tasks[position]? = some task ↔ s.tasks[position]? = some task

/-- A step leaves everything under an id as it was, sends no signal to a task of it and starts
nothing for it. -/
structure Spares (other : TaskId) (s : Supervisor) (r : Result) : Prop where
  leaves : Leaves other s r.1
  signals : ∀ x ∈ r.2.1.signals, ∃ task, s.tasks[x.1]? = some task ∧ task.id ≠ other
  started : ∀ x ∈ r.2.1.started, x.id ≠ other

namespace Leaves

theorem refl (other : TaskId) (s : Supervisor) : Leaves other s s :=
  ⟨rfl, Iff.rfl, rfl, fun _ _ _ => Iff.rfl⟩

theorem trans (h : Leaves other s t) (h' : Leaves other t u) : Leaves other s u where
  launches := h'.launches.trans h.launches
  reserved := h'.reserved.trans h.reserved
  tracked := h'.tracked.trans h.tracked
  tasks position task ht := (h'.tasks position task ht).trans (h.tasks position task ht)

/-- What is shown under an id is shown as it was, if it is a task of that id. -/
theorem shows_iff {es es' : List Started} (h : Leaves other s t) (hs : Ledger es s.books)
    (ht : Ledger es' t.books) (status : TaskStatus) :
    t.Shows other status ↔ s.Shows other status := by
  constructor
  · rintro ⟨position, task, hp, htask, rfl⟩
    have hown : task.id = other := ht.id_eq hp htask
    exact ⟨position, task, h.tracked ▸ hp, (h.tasks position task hown).mp htask, rfl⟩
  · rintro ⟨position, task, hp, htask, rfl⟩
    have hown : task.id = other := hs.id_eq hp htask
    exact ⟨position, task, h.tracked.trans hp, (h.tasks position task hown).mpr htask, rfl⟩

theorem isTaken_eq (h : Leaves other s t) : t.isTaken other = s.isTaken other := by
  rw [isTaken, isTaken, h.tracked, List.contains_eq_mem, List.contains_eq_mem,
    decide_eq_decide.mpr h.reserved]

end Leaves

/-- A step that does nothing spares every id. -/
theorem spares_idle (other : TaskId) (s : Supervisor) (outcome : Outcome) :
    Spares other s (s, {}, outcome) := ⟨.refl other s, by simp, by simp⟩

/-! ### Parts of a step -/

theorem leaves_reserve (h : id ≠ other) (n : Nat) :
    Leaves other s { s.reserve id with begun := n } where
  launches := rfl
  reserved := by simp [reserve, Ne.symm h]
  tracked := rfl
  tasks _ _ _ := Iff.rfl

theorem leaves_release (h : id ≠ other) : Leaves other s (s.release id) where
  launches := rfl
  reserved := by simp [release, Ne.symm h]
  tracked := rfl
  tasks _ _ _ := Iff.rfl

/-- Taking a launch out leaves those of other ids, since no other launch has its ticket. -/
theorem leaves_withdraw (ho : Orderly s.inFlight s) {l : Launch} (hl : s.launch? ticket = some l)
    (h : l.id ≠ other) : Leaves other s (s.withdraw ticket) where
  launches := by
    have hnodup : (s.launches.map (·.ticket)).Nodup := by
      have htickets := ho.tickets_nodup
      rw [inFlight, List.map_map] at htickets
      exact htickets
    show (s.launches.filter (·.ticket != ticket)).filter (·.id = other) = _
    rw [List.filter_filter]
    refine List.filter_congr fun m hm => ?_
    by_cases hid : m.id = other
    · have hticket : m.ticket ≠ ticket := by
        intro he
        have hsame : l.ticket = ticket := by simpa using List.find?_some hl
        have heq : m = l := List.inj_on_of_nodup_map hnodup hm (List.mem_of_find?_eq_some hl)
          (he.trans hsame.symm)
        exact h (heq ▸ hid)
      simp [hid, hticket]
    · simp [hid]
  reserved := Iff.rfl
  tracked := rfl
  tasks _ _ _ := Iff.rfl

theorem leaves_wait (h : id ≠ other) (name : String) (p : Preparation) :
    Leaves other s { s with launches := s.launches ++ [⟨ticket, id, name, p⟩] } where
  launches := by simp [List.filter_append, h]
  reserved := Iff.rfl
  tracked := rfl
  tasks _ _ _ := Iff.rfl

/-- A task that is added under an id is at a position of its own. -/
theorem leaves_track {task : Task} (hid : task.id = id) (h : id ≠ other) (n : Nat) :
    Leaves other s { s with
      starts := n, tasks := s.tasks ++ [task], tracked := s.tracked.insert id s.tasks.length } where
  launches := rfl
  reserved := Iff.rfl
  tracked := by
    show (s.tracked.insert id s.tasks.length).get? other = _
    rw [TextMap.get?_insert, if_neg (Ne.symm h)]
  tasks position v hv := by
    have hne : task ≠ v := by
      rintro rfl
      exact h (hid.symm.trans hv)
    rw [List.getElem?_append]
    split
    · rfl
    · rename_i hlt
      rw [List.getElem?_singleton, List.getElem?_eq_none (Nat.le_of_not_lt hlt)]
      split <;> simp [hne]

/-- A launch that is taken further spares every other id. -/
theorem spares_advance (w : Surroundings) (now : Moment) (ticket : Nat) (h : id ≠ other)
    (name : String) (a : Advance) : Spares other s (advance w now s ticket id name a) := by
  rcases advance_cases w now s ticket id name a with ⟨p, -, hr⟩ | ⟨e, -, hr⟩ |
    ⟨config, arguments, failure, -, -, hr⟩ | ⟨config, arguments, process, -, -, hr⟩ <;> rw [hr]
  · exact ⟨leaves_wait h name p, by simp [Journey.effectsOf], by simp [Journey.effectsOf]⟩
  · exact ⟨leaves_release h, by simp [Journey.effectsOf], by simp [Journey.effectsOf]⟩
  · refine ⟨?_, by simp [Journey.effectsOf], by simp [Journey.effectsOf]⟩
    exact (leaves_release h).trans ⟨rfl, Iff.rfl, rfl, fun _ _ _ => Iff.rfl⟩
  · refine ⟨(leaves_track rfl h _).trans (leaves_release h), by simp [Journey.effectsOf], ?_⟩
    simpa [Journey.effectsOf] using h

/-- What happens to a task stays with it. -/
theorem spares_touch (now : Moment) {position : Nat} (e : Task.Event)
    (h : (s.tasks[position]?).map (·.id) ≠ some other) :
    Spares other s (s.touch now position e) := by
  rw [touch]
  cases htask : s.tasks[position]? with
  | none => exact spares_idle other s .nothing
  | some task =>
    have hid : task.id ≠ other := by simpa [htask] using h
    refine ⟨⟨rfl, Iff.rfl, rfl, fun p v hv => ?_⟩, ?_, by simp⟩
    · show (s.tasks.set position (task.step now e).1)[p]? = some v ↔ _
      by_cases hp : position = p
      · subst hp
        have hne : ∀ v' : Task, v'.id = task.id → v' ≠ v := by
          rintro v' hv' rfl
          exact hid (hv'.symm.trans hv)
        rw [List.getElem?_set_self (List.getElem?_eq_some_iff.mp htask).1, htask]
        simp [hne, Task.id_step]
      · rw [List.getElem?_set_ne hp]
    · intro x hx
      obtain ⟨_, -, rfl⟩ := List.mem_map.mp hx
      exact ⟨task, htask, hid⟩

/-! ### Every step -/

/-- **A step spares every id that it does not concern.** -/
theorem spares_next {es : List Started} (ho : Orderly s.inFlight s) (hl : Ledger es s.books)
    {o : Occurrence} (h : s.concerns? o.event ≠ some other) : Spares other s (s.next o) := by
  obtain ⟨w, now, e⟩ := o
  cases e with
  | start id name config =>
    have hid : id ≠ other := fun he => h (congrArg some he)
    show Spares other s (s.start w now id name config)
    rw [start]
    split
    · exact spares_idle other s _
    · have hstep := spares_advance (s := { s.reserve id with begun := s.begun + 1 }) w now s.begun
        hid name (Preparation.start w.settings w.host config id name)
      exact ⟨(leaves_reserve hid _).trans hstep.leaves, hstep.signals, hstep.started⟩
  | resume ticket time arrival =>
    show Spares other s (s.resume w now time ticket arrival)
    rw [resume]
    cases hlaunch : s.launch? ticket with
    | none => exact spares_idle other s _
    | some l =>
      have hid : l.id ≠ other := by simpa [concerns?, hlaunch] using h
      have hstep := spares_advance (s := s.withdraw ticket) w now ticket hid l.name
        (l.preparation.resume w.host time arrival)
      exact ⟨(leaves_withdraw ho hlaunch hid).trans hstep.leaves, hstep.signals, hstep.started⟩
  | abandon ticket =>
    show Spares other s (s.abandon ticket, {}, .nothing)
    rw [abandon]
    cases hlaunch : s.launch? ticket with
    | none => exact spares_idle other s _
    | some l =>
      have hid : l.id ≠ other := by simpa [concerns?, hlaunch] using h
      refine ⟨?_, by simp, by simp⟩
      exact (leaves_withdraw ho hlaunch hid).trans (leaves_release hid)
  | signal id signal reply =>
    have hid : id ≠ other := fun he => h (congrArg some he)
    show Spares other s (s.signal now id signal reply)
    rw [Supervisor.signal]
    cases htask : s.task? id with
    | none => exact spares_idle other s _
    | some found =>
      obtain ⟨hposition, hfound⟩ := task?_eq_some_iff.mp htask
      have hown : found.2.id = id := hl.id_eq hposition hfound
      refine spares_touch now _ ?_
      rw [hfound]
      simpa [hown] using hid
  | remove id =>
    have hid : id ≠ other := fun he => h (congrArg some he)
    show Spares other s (s.remove id)
    rcases remove_cases s id with ⟨-, hr⟩ | ⟨position, task, -, ⟨-, hr⟩ | ⟨-, hr⟩⟩ <;> rw [hr]
    · exact spares_idle other s _
    · exact spares_idle other s _
    · refine ⟨⟨rfl, Iff.rfl, ?_, fun _ _ _ => Iff.rfl⟩, by simp, by simp⟩
      show (s.tracked.erase id).get? other = _
      rw [TextMap.get?_erase, if_neg (Ne.symm hid)]
  | find id => exact spares_idle other s _
  | list => exact spares_idle other s _
  | task position e => exact spares_touch now e h

/-! ### Every course -/

/-- **A course leaves every id as it was that none of its steps concerns**, and each of its steps
spares it. -/
theorem leaves_course (os : List Occurrence) (other : TaskId) (more : List Occurrence)
    (h : ∀ r ∈ Course.steps next (after os) more, r.before.concerns? r.input.event ≠ some other) :
    Leaves other (after os) (Course.final next (after os) more) ∧
      ∀ r ∈ Course.steps next (after os) more, Spares other r.before (behind r, r.output) := by
  have key := Course.invariant next (s := after os)
    (P := fun h t => Orderly t.inFlight t ∧ (∃ es, Ledger es t.books) ∧
      ((∀ r ∈ h, r.before.concerns? r.input.event ≠ some other) → Leaves other (after os) t ∧
        ∀ r ∈ h, Spares other r.before (behind r, r.output)))
    ⟨orderly_after os, ⟨_, ledger_after os⟩, fun _ => ⟨.refl other _, by simp⟩⟩ ?_ more
  · exact key.2.2 h
  · rintro h t o ⟨ho, ⟨es, hl⟩, ih⟩
    refine ⟨orderly_next ho o, ⟨_, (move_next ho o).ledger hl⟩, fun hnone => ?_⟩
    rw [List.forall_mem_append, List.forall_mem_singleton] at hnone ⊢
    obtain ⟨hleaves, hspares⟩ := ih hnone.1
    have hstep : Spares other t (next t o) := spares_next ho hl hnone.2
    exact ⟨hleaves.trans hstep.leaves, hspares, hstep⟩

end Supervisor

/-! ### The task that is found -/

/-- What is found under an id owns the last process that was started for it. -/
def Latest (es : List Started) (b : Books) : Prop :=
  ∀ id position, b.tracked.get? id = some position →
    ∃ t, b.tasks[position]? = some t ∧ (es.filter (·.id = id)).getLast? = some t.owned

/-- A process that is started for an id is found there at once, and takes the place of none. -/
theorem Move.latest {es : List Started} {now : Moment} {e : Event} {b b' : Books}
    {effects : Effects} {outcome : Outcome} (h : Latest es b)
    (m : Move now e b b' effects outcome) : Latest (es ++ effects.started) b' := by
  intro id position hp
  rw [List.filter_append]
  cases m with
  | idle _ hs =>
    rw [hs, List.filter_nil, List.append_nil]
    exact h id position hp
  | @touched _ _ p u te _ _ hu hs =>
    rw [hs, List.filter_nil, List.append_nil]
    obtain ⟨t, ht, hlast⟩ := h id position hp
    by_cases hposition : p = position
    · subst hposition
      obtain rfl : u = t := Option.some.inj (hu.symm.trans ht)
      refine ⟨_, List.getElem?_set_self (List.getElem?_eq_some_iff.mp ht).1, ?_⟩
      rwa [Task.owned_step]
    · exact ⟨t, (List.getElem?_set_ne hposition).trans ht, hlast⟩
  | @launched _ _ id' _ _ _ _ _ hs =>
    rw [hs]
    rw [TextMap.get?_insert] at hp
    by_cases hid : id = id'
    · rw [if_pos hid] at hp
      cases hp
      subst hid
      refine ⟨_, List.getElem?_concat_length, ?_⟩
      rw [List.filter_cons_of_pos (by simp), List.filter_nil, List.getLast?_concat]
      rfl
    · rw [if_neg hid] at hp
      obtain ⟨t, ht, hlast⟩ := h id position hp
      refine ⟨t, ?_, by simpa [Ne.symm hid] using hlast⟩
      rw [List.getElem?_append_left (List.getElem?_eq_some_iff.mp ht).1]
      exact ht
  | @removed _ id' _ _ _ _ _ _ hs =>
    rw [hs, List.filter_nil, List.append_nil]
    rw [TextMap.get?_erase] at hp
    by_cases hid : id = id'
    · rw [if_pos hid] at hp
      cases hp
    · rw [if_neg hid] at hp
      exact h id position hp

namespace Supervisor

variable {s : Supervisor}

/-- **What is found under an id owns the last process that was started for it.** -/
theorem latest_after (os : List Occurrence) : Latest (started (history os)) (after os).books := by
  refine move_invariant orderly_init (P := fun h b => Latest (started h) b) ?_ ?_ os
  · intro id position hp
    cases hp
  · intro h t o m hl
    rw [started_concat]
    exact m.latest hl

/-! ### Signals -/

theorem signal_of_untracked (now : Moment) {id : TaskId} (h : s.tracked.get? id = none)
    (signal : Signal) (reply : Except Error Unit) :
    s.signal now id signal reply = (s, {}, .failed (.missing .task id)) := by
  have hnone : s.task? id = none := by rw [task?, h]; rfl
  rw [Supervisor.signal, hnone]

/-- A signal goes to the task that is found, and nowhere else. -/
theorem signal_of_tracked (now : Moment) {id : TaskId} {position : Nat} {t : Task}
    (hp : s.tracked.get? id = some position) (ht : s.tasks[position]? = some t)
    (signal : Signal) (reply : Except Error Unit) :
    s.signal now id signal reply = s.touch now position (.signal signal reply) := by
  rw [Supervisor.signal, task?_eq_some_iff.mpr ⟨hp, ht⟩]

/-- A task that has ended gets no signal, and stays as it is. -/
theorem touch_signal_of_ended (now : Moment) {position : Nat} {t : Task}
    (ht : s.tasks[position]? = some t) (hr : t.isRunning = false) (signal : Signal)
    (reply : Except Error Unit) :
    s.touch now position (.signal signal reply) = (s, {}, .signalled false) := by
  obtain ⟨hlt, rfl⟩ := List.getElem?_eq_some_iff.mp ht
  simp only [touch, ht, Task.step, Task.deliver_of_ended hr, Task.receives, hr,
    List.set_getElem_self]
  rfl

/-- A running task gets the signal, and the reply of its process is given back. -/
theorem touch_signal_of_running (now : Moment) {position : Nat} {t : Task}
    (ht : s.tasks[position]? = some t) (hr : t.isRunning = true) (signal : Signal)
    (reply : Except Error Unit) :
    s.touch now position (.signal signal reply) =
      ({ s with tasks := s.tasks.set position { t with signals := t.signals ++ [signal] } },
        { signals := [(position, signal)] },
        match reply with
        | .ok _ => .signalled true
        | .error e => .failed e) := by
  simp only [touch, ht, Task.step, Task.deliver_of_running hr, Task.receives, hr]
  cases reply <;> rfl

/-- Whoever holds a task reaches that one, and no other. -/
theorem touch_elsewhere (s : Supervisor) (now : Moment) (position : Nat) (e : Task.Event) :
    let r := s.touch now position e
    r.1 = { s with tasks := r.1.tasks } ∧ (∀ p ≠ position, r.1.tasks[p]? = s.tasks[p]?) ∧
      r.2.1.started = [] ∧ ∀ x ∈ r.2.1.signals, x.1 = position := by
  intro r
  cases ht : s.tasks[position]? with
  | none =>
    simp only [r, touch, ht]
    exact ⟨trivial, fun _ _ => trivial, trivial, by simp⟩
  | some t =>
    simp only [r, touch, ht]
    refine ⟨trivial, fun p hp => List.getElem?_set_ne hp.symm, trivial, fun x hx => ?_⟩
    obtain ⟨_, -, rfl⟩ := List.mem_map.mp hx
    rfl

/-- **Tasks are kept apart.** Behind every course of launches that overlap, of tasks that go on, and
of ids that are removed and used again:

* a step leaves every id as it was that it does not concern: its launches, whether it is reserved,
  the task that is found there and all its tasks. It sends no signal to a task of that id, and
  starts nothing for it;
* so do all further steps of which none concerns the id. It is in use and it shows what it showed
  before;
* whoever holds a task, found or not found any more, reaches that one and no other;
* a signal on an id fails if no task is found there. Otherwise the task that is found owns the last
  process that was started for the id. If it has ended, nothing is done; if not, the signal goes to
  its process and nowhere else, nothing that is shown of it changes, and what the process replies
  is given back. -/
theorem tasks_apart (os : List Occurrence) :
    let s := after os
    (∀ (o : Occurrence) (other : TaskId), s.concerns? o.event ≠ some other →
        Spares other s (s.next o)) ∧
      (∀ (other : TaskId) (more : List Occurrence),
        (∀ r ∈ Course.steps next s more, r.before.concerns? r.input.event ≠ some other) →
          let t := Course.final next s more
          Leaves other s t ∧ t.isTaken other = s.isTaken other ∧
            (∀ status, t.Shows other status ↔ s.Shows other status) ∧
            ∀ r ∈ Course.steps next s more, Spares other r.before (behind r, r.output)) ∧
      (∀ w now position e,
        let r := s.next ⟨w, now, .task position e⟩
        r.1 = { s with tasks := r.1.tasks } ∧ (∀ p ≠ position, r.1.tasks[p]? = s.tasks[p]?) ∧
          r.2.1.started = [] ∧ ∀ x ∈ r.2.1.signals, x.1 = position) ∧
      ∀ w now id signal reply,
        let r := s.next ⟨w, now, .signal id signal reply⟩
        (s.tracked.get? id = none → r = (s, {}, .failed (.missing .task id))) ∧
          ∀ position, s.tracked.get? id = some position →
            ∃ t, s.tasks[position]? = some t ∧ t.id = id ∧
              ((started (history os)).filter (·.id = id)).getLast? = some t.owned ∧
              (t.status.state.isTerminal = true → r = (s, {}, .signalled false)) ∧
              (t.status.state.isTerminal = false →
                let t' := { t with signals := t.signals ++ [signal] }
                t'.status = t.status ∧ r =
                  ({ s with tasks := s.tasks.set position t' },
                    { signals := [(position, signal)] },
                    match reply with
                    | .ok _ => .signalled true
                    | .error e => .failed e)) := by
  intro s
  have hl : Ledger (started (history os)) s.books := ledger_after os
  refine ⟨fun o other h => spares_next (orderly_after os) hl h, fun other more h => ?_,
    fun w now position e => touch_elsewhere s now position e, fun w now id signal reply => ?_⟩
  · obtain ⟨hleaves, hspares⟩ := leaves_course os other more h
    have hfinal : Ledger (started (history (os ++ more))) (Course.final next s more).books := by
      have hafter := ledger_after (os ++ more)
      rwa [after, Course.final_append] at hafter
    exact ⟨hleaves, hleaves.isTaken_eq, hleaves.shows_iff hl hfinal, hspares⟩
  · refine ⟨fun hp => signal_of_untracked now hp signal reply, fun position hp => ?_⟩
    obtain ⟨t, ht, hlast⟩ := latest_after os id position hp
    have hsignal := signal_of_tracked now hp ht signal reply
    refine ⟨t, ht, hl.id_eq hp ht, hlast, fun hterminal => ?_, fun hrunning => ⟨rfl, ?_⟩⟩
    · have hr : t.isRunning = false := by simp [Task.isRunning_eq_not_isTerminal, hterminal]
      exact hsignal.trans (touch_signal_of_ended now ht hr signal _)
    · have hr : t.isRunning = true := by simp [Task.isRunning_eq_not_isTerminal, hrunning]
      exact hsignal.trans (touch_signal_of_running now ht hr signal _)

/-- A signal on one of two ids: its process gets it, and the other id shows what it showed. -/
theorem tasks_apart_pair :
    let s := after [webLaunch 0 "a", webLaunch 1 "b"]
    let r := s.next ⟨(webLaunch 2 "a").surroundings, ⟨2, 0⟩, .signal "a" ⟨"SIGTERM"⟩ (.ok ())⟩
    r.2.1.signals = [(0, ⟨"SIGTERM"⟩)] ∧ r.2.2 = .signalled true ∧
      s.Shows "b" (webTask 1 "b").status ∧ r.1.Shows "b" (webTask 1 "b").status := by
  intro s r
  have hne : "a" ≠ "b" := by decide
  obtain ⟨ha, hb, -, -⟩ := tracked_webLaunches hne
  obtain ⟨-, hrun, -, hsignal⟩ := tasks_apart [webLaunch 0 "a", webLaunch 1 "b"]
  obtain ⟨hposition, htask⟩ := task?_eq_some_iff.mp ha
  have hshows : s.Shows "b" (webTask 1 "b").status := shows_iff.mpr ⟨1, _, hb, rfl⟩
  obtain ⟨-, -, hkept, -⟩ := hrun "b" [⟨(webLaunch 2 "a").surroundings, ⟨2, 0⟩,
    .signal "a" ⟨"SIGTERM"⟩ (.ok ())⟩] (List.forall_mem_singleton.mpr (by simp [concerns?]))
  obtain ⟨t, ht, -, -, -, hrunning⟩ :=
    (hsignal (webLaunch 2 "a").surroundings ⟨2, 0⟩ "a" ⟨"SIGTERM"⟩ (.ok ())).2 0 hposition
  obtain rfl : t = webTask 0 "a" := Option.some.inj (ht.symm.trans htask)
  obtain ⟨-, hr⟩ := hrunning rfl
  have hr : r = _ := hr
  refine ⟨?_, ?_, hshows, (hkept _).mpr hshows⟩
  · rw [hr]
  · rw [hr]

end Supervisor

end Capsule
