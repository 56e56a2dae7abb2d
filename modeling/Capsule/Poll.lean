import Capsule.Bus.Call
import Capsule.Bus.Descriptor
import Capsule.Time.Ticker

/-!
# Asking until an answer comes

A question is asked once a period until it is answered or a deadline passes. The first question is
asked one period after the beginning and is always waited for, whatever the deadline; so there is a
failure to show when time has run out. Later questions are given up at the deadline, and where the
deadline and something else fall on the same time, the deadline comes first.

Which question is the first is told by a counter of thirty-two bits. It comes round, so that the
question behind every multiple of so many is waited for like the first.

The answers come from a source with a state, which each question moves on.

## Main definitions

* `Poll.rounds`, `Poll.run`: when the questions are asked, and how it ends
* `Poll.Raced`: which questions are given up at the deadline
* `Machine.describe`: asking the bus for a machine that is about to register
-/

namespace Capsule

/-- How to ask: once a period, which is not zero, and for how long. Milliseconds. -/
structure Poll where
  period : Nat
  period_pos : 0 < period := by decide
  timeout : Nat

namespace Poll

/-- How asking stops. -/
inductive Stop (α : Type)
  | answered (value : α) (time : Nat)
  /-- The deadline has passed; the last failure, if there was one. -/
  | expired (last : Option Error) (time : Nat)
  /-- A question that is waited for is never answered. -/
  | silent

/-- How a poll ends. -/
inductive End (α : Type)
  | answered (value : α) (time : Nat)
  /-- The deadline has passed; the last failure before that. -/
  | expired (last : Error) (time : Nat)
  /-- A question that is waited for is never answered. -/
  | silent
  /-- The clock cannot show the deadline or the time of the first question. -/
  | unshowable

/-- A course of asking: the times of the questions, the end, and the source behind it. -/
structure Run (σ ε : Type) where
  asked : List Nat
  finish : ε
  source : σ

/-- The same course with a question before it. -/
def Run.after {σ ε : Type} (time : Nat) (r : Run σ ε) : Run σ ε :=
  { r with asked := time :: r.asked }

variable {σ α : Type}

/-- Asks from the next tick on. Neither a tick nor a question is cut off while the counter of the
questions before it is zero; all others are. -/
def rounds (period : Nat) (pos : 0 < period) (deadline : Nat) (ask : σ → Answer α × σ) (s : σ)
    (attempts : UInt32) (due now : Nat) (last : Option Error) : Run σ (Stop α) :=
  let start := max due now
  if attempts ≠ 0 ∧ deadline ≤ start then ⟨[], .expired last deadline, s⟩
  else
    match ask s with
    | (.never, s) => ⟨[start], if attempts + 1 = 1 then .silent else .expired last deadline, s⟩
    | (.after delay outcome, s) =>
      if attempts + 1 ≠ 1 ∧ deadline ≤ start + delay then ⟨[start], .expired last deadline, s⟩
      else
        match outcome with
        | .ok value => ⟨[start], .answered value (start + delay), s⟩
        | .error e =>
          if _h : deadline ≤ start + delay then ⟨[start], .expired (some e) (start + delay), s⟩
          else
            (rounds period pos deadline ask s (attempts + 1) (start + period) (start + delay)
              (some e)).after start
termination_by deadline - max due now
decreasing_by omega

/-- The question behind so many others is raced against the deadline, and cut off there: the counter
of those before it does not stand at zero. -/
def Raced (n : Nat) : Prop := n % UInt32.size ≠ 0

instance (n : Nat) : Decidable (Raced n) := inferInstanceAs (Decidable (_ ≠ _))

theorem raced_iff {n : Nat} : Raced n ↔ UInt32.ofNat n ≠ 0 :=
  not_congr (UInt32.ofNat_eq_iff_mod_eq_toNat n 0).symm

theorem not_raced_zero : ¬ Raced 0 := by decide

theorem raced_of_lt {n : Nat} (hne : n ≠ 0) (hlt : n < UInt32.size) : Raced n := by
  rwa [Raced, Nat.mod_eq_of_lt hlt]

/-- There is a failure to show when time has run out: the first question has been waited for. -/
theorem finish_rounds_ne (period : Nat) (pos : 0 < period) (deadline : Nat)
    (ask : σ → Answer α × σ) (s : σ) (attempts : UInt32) (due now : Nat) (last : Option Error)
    (h : attempts ≠ 0 → last ≠ none) (time : Nat) :
    (rounds period pos deadline ask s attempts due now last).finish ≠ .expired none time := by
  fun_induction rounds period pos deadline ask s attempts due now last with
  | case1 s attempts due now last start hs => simp [h hs.1]
  | case2 s attempts due now last start hs s' hask =>
    by_cases ha : attempts = 0
    · simp [ha]
    · simp [ha, h ha]
  | case3 s attempts due now last start hs delay outcome s' hask hd =>
    simp [h (mt UInt32.add_eq_right.mpr hd.1)]
  | case4 => simp
  | case5 => simp
  | case6 s attempts due now last start hs delay s' e hask hd hlt ih => exact ih fun _ => nofun

/-- The end of a poll whose asking has stopped with a failure to show. -/
def Stop.toEnd (stop : Stop α) (h : ∀ time, stop ≠ .expired none time) : End α :=
  match stop, h with
  | .answered value time, _ => .answered value time
  | .expired (some last) time, _ => .expired last time
  | .expired none time, h => absurd rfl (h time)
  | .silent, _ => .silent

/-- Asks from now on, until the deadline. -/
def course (p : Poll) (ask : σ → Answer α × σ) (s : σ) (now : Nat) : Run σ (Stop α) :=
  rounds p.period p.period_pos (now + p.timeout) ask s 0 (now + p.period) now none

theorem finish_course_ne (p : Poll) (ask : σ → Answer α × σ) (s : σ) (now time : Nat) :
    (p.course ask s now).finish ≠ .expired none time :=
  finish_rounds_ne _ _ _ ask s _ _ _ _ (absurd rfl) time

/-- The clock shows the deadline and the time of the first question. -/
def showable (p : Poll) (now : Nat) : Bool :=
  Clock.shows (now + p.timeout) && Clock.shows (now + p.period)

/-- Asks from now on, if the clock allows for that. -/
def run (p : Poll) (ask : σ → Answer α × σ) (s : σ) (now : Nat) : Run σ (End α) :=
  if p.showable now then
    let r := p.course ask s now
    ⟨r.asked, r.finish.toEnd (p.finish_course_ne ask s now), r.source⟩
  else ⟨[], .unshowable, s⟩

end Poll

/-- How looking for a machine ends. -/
inductive Lookup
  | found (machine : MachineDescriptor) (time : Nat)
  | failed (error : Error) (time : Nat)
  | silent
  | unshowable

namespace Machine

/-- How often the bus is asked for a machine. -/
def describePeriod : Nat := 500

/-- What is being done while a machine is looked for. -/
def lookingFor (name : String) : String := "getting properties of machine " ++ name

/-- The end of looking for a machine, given the end of asking. The first bag that the bus gives
decides: it is not asked again when that is not complete. -/
def lookup (name : String) : Poll.End PropertyBag → Lookup
  | .answered bag time =>
    match MachineDescriptor.ofBag bag with
    | .ok machine => .found machine time
    | .error e => .failed e time
  | .expired last time => .failed (.timeout (lookingFor name) (some last)) time
  | .silent => .silent
  | .unshowable => .unshowable

/-- Asks the bus for a machine until it is known. -/
def poll {σ : Type} (bus : Bus σ) (s : σ) (name : String) (timeout now : Nat) :
    Poll.Run σ (Poll.End PropertyBag) :=
  Poll.run { period := describePeriod, timeout } (bus.describeMachine name) s now

/-- Looks for a machine: the course of asking, and its end. -/
def describe {σ : Type} (bus : Bus σ) (s : σ) (name : String) (timeout now : Nat) :
    Poll.Run σ (Poll.End PropertyBag) × Lookup :=
  let r := poll bus s name timeout now
  (r, lookup name r.finish)

end Machine

end Capsule
