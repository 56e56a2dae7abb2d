import Capsule.Supervisor

/-!
# Launches on a clock

How a course of events comes about when the bus takes time to answer. Each launch that waits has a
time at which what it waits for arrives, or none; the clock goes from one such time to the next,
and what arrives first goes on first. Of several launches that could go on at the same time it is
the one that comes first in the list, for as long as it does not have to wait for a later time.

The clock decides on nothing but the order: each step is a `Supervisor.step`.

## Main definitions

* `Preparation.next`: what a preparation that waits will get, and when
* `Preparation.run`: one preparation from beginning to end
* `Schedule.run`: launches of a supervisor until no more arrives
-/

namespace Capsule

/-- What arrives, and when. -/
structure Due where
  time : Nat
  arrival : Arrival
deriving Inhabited

/-- The arrival that an answer leads to. -/
def Due.ofAnswer {α : Type} (now : Nat) (arrival : Except Error α → Arrival) :
    Answer α → Option Due
  | .never => none
  | .after delay outcome => some ⟨now + delay, arrival outcome⟩

theorem Due.ofAnswer_eq_some_iff {α : Type} {now : Nat} {arrival : Except Error α → Arrival}
    {a : Answer α} {due : Due} :
    ofAnswer now arrival a = some due ↔
      ∃ delay outcome, a = .after delay outcome ∧ due = ⟨now + delay, arrival outcome⟩ := by
  cases a with
  | never => simp [ofAnswer]
  | after delay outcome =>
    constructor
    · intro h
      exact ⟨delay, outcome, rfl, (Option.some.inj h).symm⟩
    · rintro ⟨_, _, ⟨⟩, rfl⟩
      rfl

namespace Preparation

variable {σ : Type}

/-- What a preparation gets that has begun to wait now. -/
def next (bus : Bus σ) (now : Nat) (p : Preparation) (s : σ) : Option Due × σ :=
  match p.stage with
  | .pulling request =>
    let (a, s) := bus.pull request s
    (Due.ofAnswer now .pulled a, s)
  | .pausing watch => (some ⟨watch.ticker.fires now, .tick⟩, s)
  | .listing _ =>
    let (a, s) := bus.listTransfers s
    (Due.ofAnswer now .listed a, s)
  | .lookingUp =>
    let (a, s) := bus.describeImage p.config.image s
    (Due.ofAnswer now .described a, s)

end Preparation

/-- Effects, and the time at which they happened. -/
abbrev Log := List (Nat × Effects)

namespace Preparation

variable {σ : Type}

/-- How a preparation ends. -/
inductive End
  | ready (config : Config) (arguments : List String)
  | failed (error : Error)
  /-- What it waits for never arrives. -/
  | silent
  /-- It has not ended so far. -/
  | unfinished
deriving Inhabited

/-- Follows a preparation from a step on, for at most so many steps. Gives the effects, the end and
its time, and the bus behind it. -/
def follow (bus : Bus σ) (host : Host) : Nat → Nat → Advance → σ → Log × End × Nat × σ
  | 0, now, _, s => ([], .unfinished, now, s)
  | n + 1, now, a, s =>
    let effects : Effects := { calls := a.call.toList, reports := a.report.toList }
    match a.status with
    | .ready config arguments => ([(now, effects)], .ready config arguments, now, s)
    | .failed e => ([(now, effects)], .failed e, now, s)
    | .waiting p =>
      match p.next bus now s with
      | (none, s) => ([(now, effects)], .silent, now, s)
      | (some due, s) =>
        let (log, rest) := follow bus host n due.time (p.resume host due.time due.arrival) s
        ((now, effects) :: log, rest)

/-- A preparation from its beginning, for at most so many steps. -/
def run (bus : Bus σ) (settings : Settings) (host : Host) (config : Config) (id : TaskId)
    (name : String) (now steps : Nat) (s : σ) : Log × End × Nat × σ :=
  follow bus host steps now (Preparation.start settings host config id name) s

end Preparation

/-- A launch on the clock. -/
inductive Slot
  /-- The event that takes it further, and its time; without a time it never comes. -/
  | pending (time : Option Nat) (event : Event)
  | done (outcome : Outcome) (time : Nat)
deriving Inhabited

/-- Whether a slot goes on at a time. -/
def Slot.isDue (time : Nat) : Slot → Bool
  | .pending (some t) _ => t == time
  | _ => false

/-- Launches of a supervisor on the clock. -/
structure Schedule (σ : Type) where
  supervisor : Supervisor
  source : σ
  slots : List Slot
  log : Log := []

namespace Schedule

variable {σ : Type}

/-- The earliest time of a slot. -/
def earliest? (slots : List Slot) : Option Nat :=
  (slots.filterMap fun
    | .pending time _ => time
    | .done _ _ => none).min?

/-- The slot behind an outcome at a time. -/
def slotAfter (bus : Bus σ) (time : Nat) (supervisor : Supervisor) (source : σ) :
    Outcome → Slot × σ
  | .waiting ticket =>
    match supervisor.launch? ticket with
    | none => (.done .nothing time, source)
    | some l =>
      match l.preparation.next bus time source with
      | (none, source) => (.pending none (.abandon ticket), source)
      | (some due, source) =>
        (.pending (some due.time) (.resume ticket due.time due.arrival), source)
  | outcome => (.done outcome time, source)

/-- Takes the slot at an index further. -/
def take (w : Surroundings) (bus : Bus σ) (now : Moment) (c : Schedule σ) (index time : Nat) :
    Schedule σ :=
  match c.slots[index]? with
  | some (.pending _ event) =>
    let (supervisor, effects, outcome) := c.supervisor.step w now event
    let (slot, source) := slotAfter bus time supervisor c.source outcome
    { supervisor, source, slots := c.slots.set index slot, log := c.log ++ [(time, effects)] }
  | _ => c

/-- Goes on for at most so many steps, until no more arrives. -/
def run (w : Surroundings) (bus : Bus σ) (now : Moment) : Nat → Schedule σ → Schedule σ
  | 0, c => c
  | n + 1, c =>
    match earliest? c.slots with
    | none => c
    | some time =>
      match c.slots.findIdx? (Slot.isDue time) with
      | none => c
      | some index => run w bus now n (c.take w bus now index time)

/-- Launches that begin at the same time, in this order. -/
def start (supervisor : Supervisor) (source : σ) (time : Nat)
    (launches : List (TaskId × String × Config)) : Schedule σ where
  supervisor := supervisor
  source := source
  slots := launches.map fun l => .pending (some time) (.start l.1 l.2.1 l.2.2)

end Schedule

end Capsule
