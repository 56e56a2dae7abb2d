import Capsule.Proofs.Preparation.Rendering
import Capsule.Proofs.Supervisor.Launch
import Capsule.Proofs.Supervisor.Ledger

/-!
# The names of machines

A machine whose configuration names none is named after its task: the task's name, a dash, and the
stem of its id. The stem is short, so that the name is; it does not tell all ids apart
(`machine_shared`). This file says what it does tell, for the tasks of a supervisor, however their
launches overlap.

## Where a task comes from

A task does not keep the configuration of its launch. It is found in the history: `LaunchedAs` says
that a launch was begun with a name and a configuration, and that a later step of the same launch
has given the task back. `Traced` ties the two together. It is kept by every step, and there are
only three kinds of steps to look at (`Turn`): one that begins a launch, one that takes a launch
further, and one that does neither.

## Main definitions

* `Preparation.Status.Names`: the name of the machine, at each step of a preparation
* `Supervisor.LaunchedAs`: where a task comes from

## Main results

* `TaskId.machineName_inj`: when two names of machines are the same
* `Supervisor.turn_next`: what a step is for the launches
* `Supervisor.traced_after`: every task comes from a launch and bears its names
* `Supervisor.machine_eq_iff`: when two tasks have the same machine
-/

namespace Capsule

/-! ### A name of its own -/

namespace TaskId

/-- No dash is among the letters and digits of an id. -/
theorem dash_notMem_stem (id : TaskId) : '-' ∉ (stem id).toList := by
  intro h
  rw [stem, String.toList_ofList] at h
  have hchar := (List.mem_filter.mp (List.mem_of_mem_take h)).2
  exact absurd hchar (by decide)

/-- A list is cut at its last dash in one way. -/
theorem append_dash_inj {xs ys as bs : List Char} (ha : '-' ∉ as) (hb : '-' ∉ bs) :
    xs ++ '-' :: as = ys ++ '-' :: bs ↔ xs = ys ∧ as = bs := by
  refine ⟨fun h => ?_, by rintro ⟨rfl, rfl⟩; rfl⟩
  -- A longer beginning would put the dash of the one list into the end of the other.
  have hnil : ∀ {cs as bs : List Char}, '-' ∉ as → '-' :: as = cs ++ '-' :: bs →
      cs = [] ∧ as = bs := by
    intro cs as bs ha h
    cases cs with
    | nil => exact ⟨rfl, (List.cons.inj h).2⟩
    | cons c cs => exact absurd ((List.cons.inj h).2 ▸ by simp) ha
  rcases List.append_eq_append_iff.mp h with ⟨cs, rfl, hend⟩ | ⟨cs, rfl, hend⟩
  · obtain ⟨rfl, rfl⟩ := hnil ha hend
    exact ⟨(List.append_nil _).symm, rfl⟩
  · obtain ⟨rfl, rfl⟩ := hnil hb hend
    exact ⟨List.append_nil _, rfl⟩

/-- **The name of a machine tells its task's name, and no more of its id than the stem.** -/
theorem machineName_inj {id id' : TaskId} {name name' : String} :
    machineName id name = machineName id' name' ↔ name = name' ∧ stem id = stem id' := by
  simpa [← String.toList_inj, machineName] using
    append_dash_inj (dash_notMem_stem id) (dash_notMem_stem id')

end TaskId

/-! ### The name that a preparation carries -/

namespace Preparation

/-- Where a step leads, the machine has a given name. -/
def Status.Names (machine : String) : Status → Prop
  | .waiting p => p.config.machine = machine
  | .ready config _ => config.machine = machine
  | .failed _ => True

variable {host : Host} {config : Config}

theorem names_settle (path : String) : (settle host config path).status.Names config.machine := by
  rw [settle]
  split
  · rfl
  · trivial

theorem names_locate : (locate host config).status.Names config.machine := by
  rw [locate]
  split
  · trivial
  · split
    · trivial
    · exact names_settle _
    · rfl

/-- The machine has its name from the beginning of a preparation. -/
theorem names_start (settings : Settings) (id : TaskId) (name : String) :
    (start settings host config id name).status.Names (withMachine config id name).machine := by
  rw [start]
  split
  · trivial
  · dsimp only
    split
    · exact names_locate
    · split
      · trivial
      · rfl

/-- A preparation that goes on leaves the name of the machine as it is. -/
theorem names_resume (now : Nat) (p : Preparation) (arrival : Arrival) :
    (p.resume host now arrival).status.Names p.config.machine := by
  unfold resume
  split
  · trivial
  · rfl
  · rfl
  · split
    · exact names_locate
    · rfl
  · split
    · exact names_settle _
    · trivial
  · rfl

end Preparation

namespace Supervisor

variable {s : Supervisor} {ticket : Nat}

/-! ### What a step does to the launches -/

/-- A step takes a launch further that is to lead to a task of an id, a name and a machine. -/
structure Takes (s : Supervisor) (o : Occurrence) (ticket : Nat) (id : TaskId)
    (name machine : String) : Prop where
  ticketOf?_eq : s.ticketOf? o.event = some ticket
  others {other : Nat} (h : other ≠ ticket) : (s.next o).1.launch? other = s.launch? other
  waits {l : Launch} (h : (s.next o).1.launch? ticket = some l) :
    l.id = id ∧ l.name = name ∧ l.preparation.config.machine = machine
  tasks_cases : ((s.next o).1.tasks.length = s.tasks.length ∧
      ∀ position, (s.next o).2.2 ≠ .launched position) ∨
    (s.next o).2.2 = .launched s.tasks.length ∧ ∃ t : Task, (s.next o).1.tasks = s.tasks ++ [t] ∧
      t.id = id ∧ t.name = name ∧ t.machine = machine

/-- A step begins no launch and takes none further. It may give one up. -/
structure Rests (s : Supervisor) (o : Occurrence) : Prop where
  unbegun {id : TaskId} {name : String} {config : Config} (h : o.event = .start id name config) :
    s.isTaken id = true
  launches {ticket : Nat} {l : Launch} (h : (s.next o).1.launch? ticket = some l) :
    s.launch? ticket = some l
  length_eq : (s.next o).1.tasks.length = s.tasks.length
  quiet : ∀ position, (s.next o).2.2 ≠ .launched position

/-- What a step is for the launches. -/
inductive Turn (s : Supervisor) (o : Occurrence) : Prop
  | rests (rests : Rests s o)
  | begins {id : TaskId} {name : String} {config : Config}
      (event_eq : o.event = .start id name config)
      (takes : Takes s o s.begun id name (Preparation.withMachine config id name).machine)
  | resumes {ticket : Nat} {l : Launch}
      (unbegun : ∀ id name config, o.event ≠ .start id name config)
      (waits : s.launch? ticket = some l)
      (takes : Takes s o ticket l.id l.name l.preparation.config.machine)

theorem takes_advance {s₀ : Supervisor} {o : Occurrence} {id : TaskId} {name machine : String}
    {a : Advance} (hstep : s₀.next o = advance o.surroundings o.now s ticket id name a)
    (hown : s₀.ticketOf? o.event = some ticket) (hnames : a.status.Names machine)
    (htasks : s.tasks = s₀.tasks) (hgone : s.launch? ticket = none)
    (hothers : ∀ other ≠ ticket, s.launch? other = s₀.launch? other) :
    Takes s₀ o ticket id name machine := by
  have hother : ∀ {other : Nat}, other ≠ ticket →
      (s₀.next o).1.launch? other = s₀.launch? other := by
    intro other h
    rw [hstep, launch?_advance_of_ne _ _ _ h.symm, hothers other h]
  -- Behind a step that does not wait there is no launch left.
  have hover : ∀ {l : Launch}, (s₀.next o).1.launches = s.launches →
      (s₀.next o).1.launch? ticket = some l →
      l.id = id ∧ l.name = name ∧ l.preparation.config.machine = machine := by
    intro l hlaunches hl
    cases ((launch?_congr hlaunches).trans hgone).symm.trans hl
  refine ⟨hown, hother, ?_, ?_⟩
  all_goals
    rcases advance_cases o.surroundings o.now s ticket id name a with ⟨p, hstatus, hr⟩ |
      ⟨e, hstatus, hr⟩ | ⟨config, arguments, failure, hstatus, hw, hr⟩ |
      ⟨config, arguments, process, hstatus, hw, hr⟩ <;>
    rw [← hstep] at hr <;> rw [hstatus] at hnames
  · intro l hl
    rw [hr, launch?_append, hgone, Option.none_or, if_pos rfl] at hl
    cases hl
    exact ⟨rfl, rfl, hnames⟩
  · exact hover (congrArg (·.1.launches) hr)
  · exact hover (congrArg (·.1.launches) hr)
  · exact hover (congrArg (·.1.launches) hr)
  · exact .inl (by simp [hr, htasks])
  · exact .inl (by simp [hr, htasks, release])
  · exact .inl (by simp [hr, htasks, release])
  · refine .inr ⟨by rw [hr, htasks], _, by rw [hr, ← htasks]; rfl, ?_⟩
    exact ⟨rfl, rfl, hnames⟩

theorem turn_start (ho : Orderly s.inFlight s) (w : Surroundings) (now : Moment) (id : TaskId)
    (name : String) (config : Config) : Turn s ⟨w, now, .start id name config⟩ := by
  cases hid : s.isTaken id with
  | true =>
    have hnext : s.next ⟨w, now, .start id name config⟩ = (s, {}, .failed _) :=
      start_of_isTaken w now name config hid
    refine .rests ⟨?_, fun h => ?_, congrArg (·.1.tasks.length) hnext, fun position h => ?_⟩
    · rintro _ _ _ ⟨⟩
      exact hid
    · rwa [hnext] at h
    · cases (congrArg (·.2.2) hnext).symm.trans h
  | false =>
    have hstep : s.next ⟨w, now, .start id name config⟩ =
        advance w now { s.reserve id with begun := s.begun + 1 } s.begun id name
          (Preparation.start w.settings w.host config id name) := by
      show s.start w now id name config = _
      rw [start, if_neg (by simp [hid])]
    have hgone : launch? { s.reserve id with begun := s.begun + 1 } s.begun = none :=
      launch?_begun ho
    refine .begins rfl (takes_advance hstep ?_ (Preparation.names_start w.settings id name) rfl
      hgone fun _ _ => rfl)
    rw [ticketOf?, if_neg (by simp [hid])]

theorem turn_resume (w : Surroundings) (now : Moment) (ticket time : Nat) (arrival : Arrival) :
    Turn s ⟨w, now, .resume ticket time arrival⟩ := by
  cases hl : s.launch? ticket with
  | none =>
    have hnext : s.next ⟨w, now, .resume ticket time arrival⟩ = (s, {}, .nothing) := by
      show s.resume w now time ticket arrival = _
      rw [resume, hl]
    refine .rests ⟨by rintro _ _ _ ⟨⟩, fun h => ?_, congrArg (·.1.tasks.length) hnext,
      fun position h => ?_⟩
    · rwa [hnext] at h
    · cases (congrArg (·.2.2) hnext).symm.trans h
  | some l =>
    refine .resumes (by rintro _ _ _ ⟨⟩) hl (takes_advance (s := s.withdraw ticket)
      (next_resume hl w now time arrival) ?_ (Preparation.names_resume ..) rfl
      (launch?_withdraw s ticket) fun other h => launch?_withdraw_of_ne s h.symm)
    rw [ticketOf?, hl, Option.map_some]

theorem rests_abandon (w : Surroundings) (now : Moment) (ticket : Nat) :
    Rests s ⟨w, now, .abandon ticket⟩ := by
  cases hl : s.launch? ticket with
  | none =>
    have hnext : s.next ⟨w, now, .abandon ticket⟩ = (s, {}, .nothing) := by
      show (s.abandon ticket, _) = _
      rw [abandon, hl]
    exact ⟨by rintro _ _ _ ⟨⟩, fun h => by rwa [hnext] at h,
      congrArg (·.1.tasks.length) hnext, by rintro _ ⟨⟩⟩
  | some l =>
    have hnext := next_abandon hl w now
    refine ⟨by rintro _ _ _ ⟨⟩, fun {other l'} h => ?_, congrArg (·.1.tasks.length) hnext,
      by rintro _ ⟨⟩⟩
    have h : (s.withdraw ticket).launch? other = some l' :=
      (congrArg (·.1.launch? other) hnext).symm.trans h
    by_cases hne : ticket = other
    · subst hne
      cases (launch?_withdraw s ticket).symm.trans h
    · exact (launch?_withdraw_of_ne s hne).symm.trans h

/-- A step at which the launches stay as they are. -/
theorem rests_of_launches_eq {o : Occurrence}
    (unbegun : ∀ id name config, o.event ≠ .start id name config)
    (launches_eq : (s.next o).1.launches = s.launches)
    (length_eq : (s.next o).1.tasks.length = s.tasks.length)
    (quiet : ∀ position, (s.next o).2.2 ≠ .launched position) : Rests s o :=
  ⟨fun h => absurd h (unbegun _ _ _), fun h => (launch?_congr launches_eq).symm.trans h, length_eq,
    quiet⟩

theorem quiet_touch (now : Moment) (s : Supervisor) (position : Nat) (e : Task.Event) :
    (s.touch now position e).1.tasks.length = s.tasks.length ∧
      ∀ position', (s.touch now position e).2.2 ≠ .launched position' := by
  rw [touch]
  split
  · exact ⟨rfl, by rintro _ ⟨⟩⟩
  · rename_i t _
    have hquiet : (Outcome.ofResponse (t.step now e).2).IsQuiet := Outcome.isQuiet_ofResponse _
    refine ⟨List.length_set .., fun position' h => ?_⟩
    rw [show Outcome.ofResponse (t.step now e).2 = .launched position' from h] at hquiet
    exact hquiet

theorem quiet_signal (now : Moment) (s : Supervisor) (id : TaskId) (signal : Signal)
    (reply : Except Error Unit) :
    (s.signal now id signal reply).1.tasks.length = s.tasks.length ∧
      ∀ position, (s.signal now id signal reply).2.2 ≠ .launched position := by
  rw [Supervisor.signal]
  split
  · exact ⟨rfl, by rintro _ ⟨⟩⟩
  · exact quiet_touch now s _ _

theorem quiet_remove (s : Supervisor) (id : TaskId) :
    (s.remove id).1.tasks.length = s.tasks.length ∧
      ∀ position, (s.remove id).2.2 ≠ .launched position := by
  rcases remove_cases s id with ⟨-, hr⟩ | ⟨_, _, -, ⟨-, hr⟩ | ⟨-, hr⟩⟩ <;> rw [hr] <;>
    exact ⟨rfl, by rintro _ ⟨⟩⟩

/-- **Every step is a turn of one launch, or of none.** -/
theorem turn_next (ho : Orderly s.inFlight s) (o : Occurrence) : Turn s o := by
  obtain ⟨w, now, e⟩ := o
  cases e with
  | start id name config => exact turn_start ho w now id name config
  | resume ticket time arrival => exact turn_resume w now ticket time arrival
  | abandon ticket => exact .rests (rests_abandon w now ticket)
  | signal id signal reply =>
    have hquiet := quiet_signal now s id signal reply
    exact .rests (rests_of_launches_eq (by rintro _ _ _ ⟨⟩)
      (launches_signal now s id signal reply).1 hquiet.1 hquiet.2)
  | remove id =>
    have hquiet := quiet_remove s id
    exact .rests (rests_of_launches_eq (by rintro _ _ _ ⟨⟩) (launches_remove s id).1
      hquiet.1 hquiet.2)
  | find id | list =>
    exact .rests (rests_of_launches_eq (by rintro _ _ _ ⟨⟩) rfl rfl (by rintro _ ⟨⟩))
  | task position e =>
    have hquiet := quiet_touch now s position e
    exact .rests (rests_of_launches_eq (by rintro _ _ _ ⟨⟩)
      (launches_touch now s position e).1 hquiet.1 hquiet.2)

/-- A launch that a step begins or takes further has begun behind it. -/
theorem ticket_lt_next (ho : Orderly s.inFlight s) {o : Occurrence}
    (h : s.ticketOf? o.event = some ticket) : ticket < (s.next o).1.begun := by
  have hwaiting : ∀ {l : Launch}, s.launch? ticket = some l → ticket < (s.next o).1.begun :=
    fun hl => Nat.lt_of_lt_of_le ((ho.withdraw hl).ticket_lt (ticket, _) (List.mem_cons_self ..))
      (begun_next s o)
  obtain ⟨w, now, e⟩ := o
  cases e with
  | start id name config =>
    rw [ticketOf?] at h
    split at h
    · cases h
    · rename_i hid
      cases h
      exact Nat.lt_of_lt_of_eq (Nat.lt_succ_self _)
        (begun_start w now name config (by simpa using hid)).symm
  | resume other time arrival =>
    obtain ⟨l, hl, rfl⟩ := Option.map_eq_some_iff.mp h
    exact hwaiting hl
  | abandon other =>
    obtain ⟨l, hl, rfl⟩ := Option.map_eq_some_iff.mp h
    exact hwaiting hl
  | signal | remove | find | list | task => cases h

/-! ### Where a task comes from -/

/-- A launch of a history was begun with a name and a configuration under an id. -/
def Began (h : History) (ticket : Nat) (id : TaskId) (name : String) (config : Config) : Prop :=
  ∃ first ∈ ofLaunch ticket h, first.input.event = .start id name config

/-- The task at a position is what a launch of a history has led to. -/
def LaunchedAs (h : History) (position : Nat) (id : TaskId) (name : String) (config : Config) :
    Prop :=
  ∃ ticket, Began h ticket id name config ∧
    ∃ last ∈ ofLaunch ticket h, last.output.2 = .launched position

variable {h : History} {r : Taken} {id : TaskId} {name : String} {config : Config}
  {position : Nat}

theorem mem_ofLaunch_concat {t : Taken} :
    t ∈ ofLaunch ticket (h ++ [r]) ↔
      t ∈ ofLaunch ticket h ∨ t = r ∧ r.before.ticketOf? r.input.event = some ticket := by
  simp only [ofLaunch, List.filter_append, List.mem_append, List.mem_filter, List.mem_singleton,
    decide_eq_true_eq]
  refine or_congr Iff.rfl ⟨?_, ?_⟩
  · rintro ⟨rfl, h⟩
    exact ⟨rfl, h⟩
  · rintro ⟨rfl, h⟩
    exact ⟨rfl, h⟩

theorem began_concat :
    Began (h ++ [r]) ticket id name config ↔ Began h ticket id name config ∨
      r.input.event = .start id name config ∧ r.before.ticketOf? r.input.event = some ticket := by
  simp only [Began, mem_ofLaunch_concat]
  constructor
  · rintro ⟨first, hfirst | ⟨rfl, hown⟩, hevent⟩
    · exact .inl ⟨first, hfirst, hevent⟩
    · exact .inr ⟨hevent, hown⟩
  · rintro (⟨first, hfirst, hevent⟩ | ⟨hevent, hown⟩)
    · exact ⟨first, .inl hfirst, hevent⟩
    · exact ⟨r, .inr ⟨rfl, hown⟩, hevent⟩

theorem LaunchedAs.append (hl : LaunchedAs h position id name config) (t : History) :
    LaunchedAs (h ++ t) position id name config := by
  have hmem : ∀ {ticket u}, u ∈ ofLaunch ticket h → u ∈ ofLaunch ticket (h ++ t) := by
    intro ticket u hu
    rw [ofLaunch, List.filter_append]
    exact List.mem_append_left _ hu
  obtain ⟨ticket, ⟨first, hfirst, hevent⟩, last, hlast, hout⟩ := hl
  exact ⟨ticket, ⟨first, hmem hfirst, hevent⟩, last, hmem hlast, hout⟩

/-- The launches that wait and the tasks come from the launches of a history, and bear the names
with which these were begun. -/
structure Traced (h : History) (s : Supervisor) : Prop where
  ticket_lt {ticket : Nat} {t : Taken} (ht : t ∈ ofLaunch ticket h) : ticket < s.begun
  exists_began {ticket : Nat} {l : Launch} (hl : s.launch? ticket = some l) :
    ∃ config, Began h ticket l.id l.name config
  carries {ticket : Nat} {l : Launch} {id : TaskId} {name : String} {config : Config}
    (hl : s.launch? ticket = some l) (hb : Began h ticket id name config) :
    l.id = id ∧ l.name = name ∧
      l.preparation.config.machine = (Preparation.withMachine config id name).machine
  exists_launchedAs {position : Nat} (hp : position < s.tasks.length) :
    ∃ id name config, LaunchedAs h position id name config
  bears {position : Nat} {id : TaskId} {name : String} {config : Config}
    (hl : LaunchedAs h position id name config) : ∃ t, s.tasks[position]? = some t ∧
      t.id = id ∧ t.name = name ∧ t.machine = (Preparation.withMachine config id name).machine

namespace Traced

variable {o : Occurrence} {out : Effects × Outcome}

theorem ticket_lt_concat (ho : Orderly s.inFlight s) (ht : Traced h s) {t : Taken}
    (hmem : t ∈ ofLaunch ticket (h ++ [⟨s, o, out⟩])) : ticket < (s.next o).1.begun := by
  rcases mem_ofLaunch_concat.mp hmem with hold | ⟨-, hown⟩
  · exact Nat.lt_of_lt_of_le (ht.ticket_lt hold) (begun_next s o)
  · exact ticket_lt_next ho hown

/-- A task that was launched before a step bears its names behind it. -/
theorem bears_next (ho : Orderly s.inFlight s) (ht : Traced h s)
    (hl : LaunchedAs h position id name config) :
    ∃ t, (s.next o).1.tasks[position]? = some t ∧ t.id = id ∧ t.name = name ∧
      t.machine = (Preparation.withMachine config id name).machine := by
  obtain ⟨t, htask, rfl, rfl, hmachine⟩ := ht.bears hl
  obtain ⟨is, his⟩ := task_course ho htask [o]
  have hbirth : (Course.final Task.next t is).birth = t.birth :=
    Course.final_invariant Task.next (P := fun u => u.birth = t.birth) rfl
      (fun u i hu => (u.birth_step i.1 i.2).trans hu) is
  simp only [Task.birth, Prod.mk.injEq] at hbirth
  exact ⟨_, his, hbirth.1, hbirth.2.1, hbirth.2.2.1.trans hmachine⟩

/-- A task that is launched behind a step was launched before it or is launched in it. -/
theorem launchedAs_cases (ht : Traced h s)
    (hl : LaunchedAs (h ++ [⟨s, o, out⟩]) position id name config) :
    LaunchedAs h position id name config ∨
      ∃ ticket, Began (h ++ [⟨s, o, out⟩]) ticket id name config ∧
        s.ticketOf? o.event = some ticket ∧ out.2 = .launched position := by
  obtain ⟨ticket, hbegan, last, hlast, hout⟩ := hl
  rcases mem_ofLaunch_concat.mp hlast with hold | ⟨rfl, hown⟩
  · rcases began_concat.mp hbegan with hbegan | ⟨hevent, hown⟩
    · exact .inl ⟨ticket, hbegan, last, hold, hout⟩
    · -- A launch that begins in this step has no step before it.
      have hevent : o.event = .start id name config := hevent
      have hown : s.ticketOf? o.event = some ticket := hown
      rw [hevent, ticketOf?] at hown
      split at hown
      · cases hown
      · cases hown
        exact absurd (ht.ticket_lt hold) (Nat.lt_irrefl _)
  · exact .inr ⟨ticket, hbegan, hown, hout⟩

theorem next_of_rests (ho : Orderly s.inFlight s) (ht : Traced h s) (hr : Rests s o) :
    Traced (h ++ [⟨s, o, (s.next o).2⟩]) (s.next o).1 := by
  have hbegan {ticket : Nat} {id : TaskId} {name : String} {config : Config}
      (hb : Began (h ++ [⟨s, o, (s.next o).2⟩]) ticket id name config) :
      Began h ticket id name config := by
    rcases began_concat.mp hb with hb | ⟨hevent, hown⟩
    · exact hb
    · have hevent : o.event = .start id name config := hevent
      have hown : s.ticketOf? o.event = some ticket := hown
      rw [hevent, ticketOf?, if_pos (hr.unbegun hevent)] at hown
      cases hown
  refine ⟨ht.ticket_lt_concat ho, fun hl => ?_,
    fun hl hb => ht.carries (hr.launches hl) (hbegan hb), fun hp => ?_, fun hl => ?_⟩
  · obtain ⟨config, hb⟩ := ht.exists_began (hr.launches hl)
    exact ⟨config, began_concat.mpr (.inl hb)⟩
  · obtain ⟨id, name, config, hl⟩ := ht.exists_launchedAs (hr.length_eq ▸ hp)
    exact ⟨id, name, config, hl.append _⟩
  · rcases ht.launchedAs_cases hl with hold | ⟨_, -, -, hout⟩
    · exact ht.bears_next ho hold
    · exact absurd hout (hr.quiet _)

/-- A step that takes a launch further keeps the traces, if that launch has one. -/
theorem next_of_takes (ho : Orderly s.inFlight s) (ht : Traced h s) {machine : String}
    (htakes : Takes s o ticket id name machine)
    (hexists : ∃ config, Began (h ++ [⟨s, o, (s.next o).2⟩]) ticket id name config)
    (hbegan : ∀ {id' name' config'},
      Began (h ++ [⟨s, o, (s.next o).2⟩]) ticket id' name' config' →
        id = id' ∧ name = name' ∧ machine = (Preparation.withMachine config' id' name').machine) :
    Traced (h ++ [⟨s, o, (s.next o).2⟩]) (s.next o).1 := by
  have hown {other : Nat} (hother : s.ticketOf? o.event = some other) : other = ticket :=
    Option.some.inj (hother.symm.trans htakes.ticketOf?_eq)
  refine ⟨ht.ticket_lt_concat ho, fun {other l} hl => ?_,
    fun {other l id' name' config'} hl hb => ?_, fun {position} hp => ?_,
    fun {position id' name' config'} hl => ?_⟩
  · by_cases hother : other = ticket
    · subst hother
      obtain ⟨rfl, rfl, -⟩ := htakes.waits hl
      exact hexists
    · obtain ⟨config, hb⟩ := ht.exists_began ((htakes.others hother).symm.trans hl)
      exact ⟨config, began_concat.mpr (.inl hb)⟩
  · by_cases hother : other = ticket
    · subst hother
      obtain ⟨rfl, rfl, rfl⟩ := htakes.waits hl
      exact hbegan hb
    · rcases began_concat.mp hb with hb | ⟨-, hb⟩
      · exact ht.carries ((htakes.others hother).symm.trans hl) hb
      · exact absurd (hown hb) hother
  · obtain ⟨hlength, -⟩ | ⟨hout, t, htasks, -⟩ := htakes.tasks_cases
    · obtain ⟨id, name, config, hl⟩ := ht.exists_launchedAs (hlength ▸ hp)
      exact ⟨id, name, config, hl.append _⟩
    · rw [htasks, List.length_append, List.length_singleton] at hp
      rcases Nat.lt_succ_iff_lt_or_eq.mp hp with hp | rfl
      · obtain ⟨id, name, config, hl⟩ := ht.exists_launchedAs hp
        exact ⟨id, name, config, hl.append _⟩
      · obtain ⟨config, hb⟩ := hexists
        exact ⟨id, name, config, ticket, hb, _,
          mem_ofLaunch_concat.mpr (.inr ⟨rfl, htakes.ticketOf?_eq⟩), hout⟩
  · rcases ht.launchedAs_cases hl with hold | ⟨other, hb, hother, hout⟩
    · exact ht.bears_next ho hold
    · obtain ⟨-, hquiet⟩ | ⟨hout', t, htasks, rfl, rfl, rfl⟩ := htakes.tasks_cases
      · exact absurd hout (hquiet _)
      · cases hout'.symm.trans hout
        exact ⟨t, by rw [htasks, List.getElem?_concat_length], hbegan (hown hother ▸ hb)⟩

/-- **Every step keeps the traces.** -/
theorem next (ho : Orderly s.inFlight s) (ht : Traced h s) (o : Occurrence) :
    Traced (h ++ [⟨s, o, (s.next o).2⟩]) (s.next o).1 := by
  cases turn_next ho o with
  | rests hr => exact ht.next_of_rests ho hr
  | begins hevent htakes =>
    refine ht.next_of_takes ho htakes
      ⟨_, began_concat.mpr (.inr ⟨hevent, htakes.ticketOf?_eq⟩)⟩ fun hb => ?_
    rcases began_concat.mp hb with ⟨t, hmem, -⟩ | ⟨hevent', -⟩
    · exact absurd (ht.ticket_lt hmem) (Nat.lt_irrefl _)
    · cases hevent.symm.trans hevent'
      exact ⟨rfl, rfl, rfl⟩
  | resumes hunbegun hl htakes =>
    obtain ⟨config, hb⟩ := ht.exists_began hl
    refine ht.next_of_takes ho htakes ⟨config, began_concat.mpr (.inl hb)⟩ fun hb => ?_
    rcases began_concat.mp hb with hb | ⟨hevent, -⟩
    · exact ht.carries hl hb
    · exact absurd hevent (hunbegun _ _ _)

end Traced

theorem traced_after (os : List Occurrence) : Traced (history os) (after os) := by
  have hinit : Traced [] {} :=
    ⟨nofun, nofun, nofun, nofun, by rintro _ _ _ _ ⟨_, -, _, h, -⟩; cases h⟩
  have key := Course.invariant Supervisor.next
    (P := fun h s => Orderly s.inFlight s ∧ Traced h s) ⟨orderly_init, hinit⟩
    (fun h s o hs => ⟨orderly_next hs.1 o, hs.2.next hs.1 o⟩) os
  exact key.2

/-! ### Two tasks -/

/-- A launch that does not have to wait is over in the step that begins it. -/
theorem launchedAs_of_mem (hr : r ∈ h) (hevent : r.input.event = .start id name config)
    (hid : r.before.isTaken id = false) (hout : r.output.2 = .launched position) :
    LaunchedAs h position id name config := by
  have hown : r ∈ ofLaunch r.before.begun h := by
    refine List.mem_filter.mpr ⟨hr, ?_⟩
    rw [hevent, ticketOf?, if_neg (by simp [hid]), decide_eq_true_eq]
  exact ⟨_, ⟨r, hown, hevent⟩, r, hown, hout⟩

/-- **What the name of a machine tells.** Every task that is found under an id has been launched
under it, and every task that has been launched from a configuration without a name for its machine
has the name that its id and its own name make. So two of them have the same machine exactly if they
have the same name and their ids begin with the same eight letters and digits. -/
theorem machine_eq_iff (os : List Occurrence) :
    let s := after os
    let h := history os
    (∀ id position t, s.task? id = some (position, t) →
      ∃ name config, LaunchedAs h position id name config) ∧
    ∀ id id' name name' config config' position position' t t',
      s.task? id = some (position, t) → s.task? id' = some (position', t') →
      LaunchedAs h position id name config → LaunchedAs h position' id' name' config' →
      config.machine = "" → config'.machine = "" →
        t.machine = name ++ "-" ++ TaskId.stem id ∧
          (t.machine = t'.machine ↔ name = name' ∧ TaskId.stem id = TaskId.stem id') := by
  intro s h
  have htraced : Traced h s := traced_after os
  have hmachine : ∀ {id name config position t}, s.task? id = some (position, t) →
      LaunchedAs h position id name config → config.machine = "" →
        t.machine = TaskId.machineName id name := by
    intro id name config position t ht hl hempty
    obtain ⟨u, hu, -, -, hmachine⟩ := htraced.bears hl
    cases (task?_eq_some_iff.mp ht).2.symm.trans hu
    rw [hmachine, Preparation.machine_withMachine hempty]
  refine ⟨fun id position t ht => ?_, ?_⟩
  · obtain ⟨hp, htask⟩ := task?_eq_some_iff.mp ht
    obtain ⟨u, hu, hid⟩ := (ledger_after os).found id position hp
    obtain ⟨id', name, config, hl⟩ :=
      htraced.exists_launchedAs (List.getElem?_eq_some_iff.mp htask).1
    obtain ⟨v, hv, rfl, -⟩ := htraced.bears hl
    cases hu.symm.trans hv
    exact ⟨name, config, hid ▸ hl⟩
  · intro id id' name name' config config' position position' t t' ht ht' hl hl' hempty hempty'
    rw [hmachine ht hl hempty, hmachine ht' hl' hempty']
    exact ⟨rfl, TaskId.machineName_inj⟩

/-- A configuration that can be launched at once, and names no machine. -/
def unnamed : Config := { image := "/", ephemeral := true }

/-- A host with nothing but its root. -/
def bareHost : Host := ⟨.empty, [], .ok "/"⟩

/-- A launch of this configuration. -/
def webLaunch (n : Nat) (id : TaskId) : Occurrence where
  surroundings := { settings := {}, host := bareHost, launcher := fun k _ => .ok { pid := some k } }
  now := ⟨n, 0⟩
  event := .start id "web" unnamed

/-- The task that it leads to. -/
def webTask (n : Nat) (id : TaskId) : Task :=
  (Task.ofStart n id "web" (TaskId.machineName id "web") { pid := some n } ⟨n, 0⟩).monitor.1

/-- The root is found at once, so there is nothing to wait for. -/
theorem status_unnamed (id : TaskId) : ∃ config arguments,
    config.machine = TaskId.machineName id "web" ∧
      (Preparation.start {} bareHost unnamed id "web").status = .ready config arguments := by
  have hdisk : Image.onDisk bareHost unnamed.image = .ok (some "/") :=
    Image.onDisk_eq_some_iff.mpr ⟨"/", rfl, by cbv, by decide⟩
  have hdownload : Preparation.download? {} (Preparation.withMachine unnamed id "web") = none :=
    Preparation.download?_eq_none (.inl rfl)
  have hentry : bareHost.files.entry bareHost.directory "/" = .ok .directory := by cbv
  have himage : (Preparation.withMachine unnamed id "web").image ≠ "" := by
    rw [Preparation.image_withMachine]
    decide
  have harguments := Config.argumentsAt_eq_ok_iff.mpr ⟨himage, _, hentry, rfl⟩
  rw [← Preparation.image_withMachine id "web"] at hdisk
  rw [Preparation.start_of_valid (by rfl) hdownload,
    Preparation.locate_of_onDisk hdisk harguments]
  refine ⟨_, _, ?_, rfl⟩
  exact Preparation.machine_withMachine rfl

/-- A launch that is over in one step: the task is there, and tracked. -/
theorem next_webLaunch {s : Supervisor} {id : TaskId} (hfree : s.isTaken id = false) :
    ∃ effects, s.next (webLaunch s.starts id) =
      ({ s with
          reserved := (id :: s.reserved).filter (· ≠ id)
          tasks := s.tasks ++ [webTask s.starts id]
          tracked := s.tracked.insert id s.tasks.length
          begun := s.begun + 1
          starts := s.starts + 1 }, effects, .launched s.tasks.length) := by
  obtain ⟨config, arguments, hmachine, hready⟩ := status_unnamed id
  have hnext : s.next (webLaunch s.starts id) =
      advance (webLaunch s.starts id).surroundings (webLaunch s.starts id).now
        { s.reserve id with begun := s.begun + 1 } s.begun id "web"
        (Preparation.start {} bareHost unnamed id "web") := by
    show s.start _ _ id "web" unnamed = _
    rw [start, if_neg (by simp [hfree])]
    rfl
  rw [hnext, advance, hready, webTask, ← hmachine]
  exact ⟨_, rfl⟩

/-- Two launches under different ids, one behind the other. -/
theorem tracked_webLaunches {id id' : TaskId} (h : id ≠ id') :
    let os := [webLaunch 0 id, webLaunch 1 id']
    (after os).task? id = some (0, webTask 0 id) ∧ (after os).task? id' = some (1, webTask 1 id') ∧
      LaunchedAs (history os) 0 id "web" unnamed ∧ LaunchedAs (history os) 1 id' "web" unnamed := by
  intro os
  let s : Supervisor :=
    { tasks := [webTask 0 id], tracked := TextMap.empty.insert id 0, begun := 1, starts := 1 }
  obtain ⟨effects, hfirst⟩ : ∃ effects, Supervisor.next {} (webLaunch 0 id) =
      (s, effects, .launched 0) := by
    have hfree : isTaken {} id = false := rfl
    obtain ⟨effects, hnext⟩ := next_webLaunch hfree
    refine ⟨effects, hnext.trans ?_⟩
    simp [s]
  have hfree : s.isTaken id' = false := by
    simp [s, isTaken, TextMap.get?_insert, TextMap.get?_empty, h.symm]
  obtain ⟨effects', hsecond⟩ := next_webLaunch hfree
  have hafter : after os = (s.next (webLaunch 1 id')).1 := by
    show ((Supervisor.next {} (webLaunch 0 id)).1.next (webLaunch 1 id')).1 = _
    rw [hfirst]
  have htasks : (after os).tasks = [webTask 0 id, webTask 1 id'] := by
    rw [hafter]
    exact congrArg (·.1.tasks) hsecond
  have htracked : (after os).tracked = (TextMap.empty.insert id 0).insert id' 1 := by
    rw [hafter]
    exact congrArg (·.1.tracked) hsecond
  refine ⟨?_, ?_, ?_, ?_⟩
  · rw [task?_eq_some_iff, htasks, htracked, TextMap.get?_insert, TextMap.get?_insert]
    simp [h]
  · rw [task?_eq_some_iff, htasks, htracked, TextMap.get?_insert]
    simp
  · exact launchedAs_of_mem (List.mem_cons_self ..) rfl rfl (congrArg (·.2.2) hfirst)
  · have hlast : ⟨s, webLaunch 1 id', (s.next (webLaunch 1 id')).2⟩ ∈ history os := by
      rw [show s = (Supervisor.next {} (webLaunch 0 id)).1 by rw [hfirst]]
      exact List.mem_cons_of_mem _ (List.mem_cons_self ..)
    exact launchedAs_of_mem hlast rfl hfree (congrArg (·.2.2) hsecond)

/-- Ids that begin differently. -/
theorem machine_eq_iff_distinct :
    let s := after [webLaunch 0 "0f3c9a1e-77aa", webLaunch 1 "ab-cd-ef-gh-ij"]
    ∃ t t', s.task? "0f3c9a1e-77aa" = some (0, t) ∧ s.task? "ab-cd-ef-gh-ij" = some (1, t') ∧
      t.machine = "web-0f3c9a1e" ∧ t.machine ≠ t'.machine := by
  have hne : "0f3c9a1e-77aa" ≠ "ab-cd-ef-gh-ij" := by decide
  obtain ⟨ht, ht', hl, hl'⟩ := tracked_webLaunches hne
  obtain ⟨hmachine, hiff⟩ := (machine_eq_iff _).2 _ _ _ _ _ _ _ _ _ _ ht ht' hl hl' rfl rfl
  exact ⟨_, _, ht, ht', hmachine, fun h => absurd (hiff.mp h).2 (by decide)⟩

/-- Ids that begin alike: one machine for two tasks. -/
theorem machine_shared :
    let os := [webLaunch 0 "aaaaaaaa-1", webLaunch 1 "aaaaaaaa-2"]
    ∃ t t', (after os).task? "aaaaaaaa-1" = some (0, t) ∧
      (after os).task? "aaaaaaaa-2" = some (1, t') ∧
      LaunchedAs (history os) 0 "aaaaaaaa-1" "web" unnamed ∧
      LaunchedAs (history os) 1 "aaaaaaaa-2" "web" unnamed ∧
      unnamed.machine = "" ∧ t.machine = t'.machine := by
  have hne : "aaaaaaaa-1" ≠ "aaaaaaaa-2" := by decide
  obtain ⟨ht, ht', hl, hl'⟩ := tracked_webLaunches hne
  exact ⟨_, _, ht, ht', hl, hl', rfl, TaskId.machineName_inj.mpr ⟨rfl, by decide⟩⟩

end Supervisor

end Capsule
