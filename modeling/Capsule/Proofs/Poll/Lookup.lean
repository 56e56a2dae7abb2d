import Capsule.Proofs.Bus.Descriptors
import Capsule.Proofs.Poll.Deadline

/-!
# Looking for a machine

Looking for a machine can fail in two ways: the bus knows nothing of it in time, or what the bus
says of it is not complete. The first is worth another question and the second is not, since a
machine is registered with all its properties. This file proves that the two are kept apart,
whatever the bus does: `Machine.first_bag_decides`.

What is said of the course is said of `Poll.answers`, the answers to its questions one after the
other. An answer with a bag is the last of them, so that the first bag is the only one; an answer
with a failure is the last only if there is no time for another question. The kind of failure plays
no part in this, and a bag plays no part but by being one: it is looked at when all asking is over.

## Main definitions

* `Poll.CutOff`: what is left of a course behind its last failure

## Main results

* `Poll.asked_again`: what follows on an answer
* `Poll.course_outcome`: how a course ends
* `Machine.first_bag_decides`
-/

namespace Capsule

variable {σ α : Type}

namespace Poll

/-- Nothing more is asked, or one question, which would not be answered before the deadline. -/
def CutOff (deadline : Nat) (rest : List (Option (Nat × Except Error α))) : Prop :=
  rest = [] ∨ ∃ answer, rest = [answer] ∧
    ∀ time outcome, answer = some (time, outcome) → deadline ≤ time

/-- The answers of a course are what its source replies. -/
theorem getElem?_answers (ask : σ → Answer α × σ) (s : σ) (times : List Nat) (k : Nat) :
    (answers ask s times)[k]? = times[k]?.map (Source.reply ask s k).arrives := by
  induction times generalizing s k with
  | nil => rfl
  | cons time times ih =>
    cases k with
    | zero => rfl
    | succ k => exact ih (ask s).2 k

/-- A question that is never answered behind some failures. -/
theorem reply_of_answers {ask : σ → Answer α × σ} {s : σ} {times : List Nat}
    {fs : List (Nat × Error)} (h : answers ask s times = failures fs ++ [none]) :
    Source.reply ask s fs.length = .never := by
  have hnone : (answers ask s times)[fs.length]? = some none := by
    rw [h, failures, List.getElem?_append_right (by simp)]
    simp
  rw [getElem?_answers, Option.map_eq_some_iff] at hnone
  obtain ⟨time, -, harrives⟩ := hnone
  cases hreply : Source.reply ask s fs.length with
  | never => rfl
  | after delay outcome =>
    rw [hreply] at harrives
    cases harrives

/-! ### What follows on an answer -/

/-- One answer is the only one. -/
theorem eq_of_singleton_eq {β : Type} {a x : β} {before behind : List β}
    (h : [a] = before ++ x :: behind) : a = x ∧ before = [] ∧ behind = [] := by
  cases before with
  | nil =>
    obtain ⟨rfl, rfl⟩ := List.cons.inj h
    exact ⟨rfl, rfl, rfl⟩
  | cons b before => simp at h

/-- The answer to a question that is asked once. -/
theorem eq_of_answers_singleton {ask : σ → Answer α × σ} {s s' : σ} {start delay time : Nat}
    {outcome outcome' : Except Error α} {before behind : List (Option (Nat × Except Error α))}
    (hask : ask s = (.after delay outcome, s'))
    (h : answers ask s [start] = before ++ some (time, outcome') :: behind) :
    before = [] ∧ behind = [] ∧ start + delay = time ∧ outcome = outcome' := by
  rw [answers_singleton (congrArg Prod.fst hask)] at h
  obtain ⟨heq, hbefore, hbehind⟩ := eq_of_singleton_eq h
  obtain ⟨htime, houtcome⟩ := Prod.mk.inj (Option.some.inj heq)
  exact ⟨hbefore, hbehind, htime, houtcome⟩

/-- **What follows on an answer.** Nothing does if it is a success, and if it is a failure, another
question does unless that would not be due before the deadline. -/
theorem asked_again (period : Nat) (pos : 0 < period) (deadline : Nat) (ask : σ → Answer α × σ)
    (s : σ) (attempts : UInt32) (due now : Nat) (last : Option Error) :
    let r := rounds period pos deadline ask s attempts due now last
    (r.asked = [] → deadline ≤ max due now) ∧
      ∀ before behind time outcome,
        answers ask s r.asked = before ++ some (time, outcome) :: behind →
        (∀ value, outcome = .ok value → behind = []) ∧
          ∀ start, r.asked[before.length]? = some start → max (start + period) time < deadline →
            ∀ e, outcome = .error e → behind ≠ [] := by
  fun_induction rounds period pos deadline ask s attempts due now last with
  | case1 s attempts due now last start hs =>
    refine ⟨fun _ => hs.2, fun before behind time outcome h => ?_⟩
    cases before <;> cases h
  | case2 s attempts due now last start hs s' hask =>
    refine ⟨by simp, fun before behind time outcome h => ?_⟩
    rw [answers_singleton (congrArg Prod.fst hask)] at h
    cases (eq_of_singleton_eq h).1
  | case3 s attempts due now last start hs delay outcome s' hask hd =>
    refine ⟨by simp, fun before behind time outcome' h => ?_⟩
    obtain ⟨rfl, rfl, rfl, rfl⟩ := eq_of_answers_singleton hask h
    exact ⟨fun _ _ => rfl, fun _ _ hlt => by omega⟩
  | case4 s attempts due now last start hs delay s' hd value hask =>
    refine ⟨by simp, fun before behind time outcome h => ?_⟩
    obtain ⟨rfl, rfl, rfl, rfl⟩ := eq_of_answers_singleton hask h
    exact ⟨fun _ _ => rfl, by simp⟩
  | case5 s attempts due now last start hs delay s' hd e hlt hask =>
    refine ⟨by simp, fun before behind time outcome h => ?_⟩
    obtain ⟨rfl, rfl, rfl, rfl⟩ := eq_of_answers_singleton hask h
    exact ⟨fun _ _ => rfl, fun _ _ hlt => by omega⟩
  | case6 s attempts due now last start hs delay s' hd e hlt hask ih =>
    obtain ⟨hidle, hnext⟩ := ih
    refine ⟨by simp [Run.after], fun before behind time outcome h => ?_⟩
    have hanswers : ∀ times, answers ask s (start :: times) =
        some (start + delay, .error e) :: answers ask s' times := by
      intro times
      rw [answers, hask]
      rfl
    rw [Run.after, hanswers] at h
    cases before with
    | nil =>
      obtain ⟨heq, hbehind⟩ := List.cons.inj h
      cases heq
      refine ⟨by simp, fun start' hstart hlt _ _ hnil => ?_⟩
      obtain rfl : start = start' := Option.some.inj hstart
      -- Where nothing follows, the course has stopped before its next question.
      have hasked : (rounds period pos deadline ask s' (attempts + 1) (start + period)
          (start + delay) (some e)).asked = [] := by
        rw [hnil] at hbehind
        revert hbehind
        cases (rounds period pos deadline ask s' (attempts + 1) (start + period)
          (start + delay) (some e)).asked with
        | nil => exact fun _ => rfl
        | cons time times => simp [answers]
      have := hidle hasked
      omega
    | cons a before => exact hnext before behind time outcome (List.cons.inj h).2

/-- What follows on an answer in a whole course. -/
theorem course_asked_again (p : Poll) (ask : σ → Answer α × σ) (s : σ) (now : Nat)
    (before behind : List (Option (Nat × Except Error α))) (time : Nat)
    (outcome : Except Error α)
    (h : answers ask s (p.course ask s now).asked = before ++ some (time, outcome) :: behind) :
    (∀ value, outcome = .ok value → behind = []) ∧
      ∀ start, (p.course ask s now).asked[before.length]? = some start →
        max (start + p.period) time < now + p.timeout → ∀ e, outcome = .error e → behind ≠ [] :=
  (asked_again p.period p.period_pos (now + p.timeout) ask s 0 (now + p.period) now none).2
    before behind time outcome h

/-! ### How a course ends -/

/-- **How a course ends.** Failures are followed by a success; or by nothing that comes before the
deadline; or by a question that is not raced against the deadline, and is never answered. -/
theorem course_outcome (p : Poll) (ask : σ → Answer α × σ) (s : σ) (now : Nat) :
    let r := p.course ask s now
    let deadline := now + p.timeout
    (∃ fs, answers ask s r.asked = failures fs ++ [none] ∧ ¬ Raced fs.length ∧
      r.finish = .silent) ∨
      (∃ fs value time, answers ask s r.asked = failures fs ++ [some (time, .ok value)] ∧
        (Raced fs.length → time < deadline) ∧ r.finish = .answered value time) ∨
      ∃ fs time last rest stop,
        answers ask s r.asked = failures (fs ++ [(time, last)]) ++ rest ∧
        (Raced fs.length → time < deadline) ∧ CutOff deadline rest ∧
        r.finish = .expired (some last) stop := by
  intro r deadline
  cases hfirst : (ask s).1 with
  | never =>
    have hask : ask s = (.never, (ask s).2) := Prod.ext hfirst rfl
    have hr : r = ⟨[max (now + p.period) now], .silent, (ask s).2⟩ := by
      show p.course ask s now = _
      rw [course, rounds, hask]
      rfl
    rw [hr]
    exact .inl ⟨[], answers_singleton hfirst _, not_raced_zero, rfl⟩
  | after delay outcome =>
    cases outcome with
    | ok value =>
      rw [show r = _ from course_of_ok p hfirst]
      exact .inr (.inl ⟨[], value, _, answers_singleton hfirst _,
        fun h => absurd h not_raced_zero, rfl⟩)
    | error e =>
      obtain ⟨fs, rest, hanswers, hbefore, -, hsettled⟩ := p.settled_course now hfirst
      -- Time has run out behind the failures: the last of them is given back.
      have hexpired : ∀ stop, CutOff deadline rest →
          r.finish = .expired (some ((fs.map (·.2)).getLastD e)) stop →
          ∃ fs time last rest stop,
            answers ask s r.asked = failures (fs ++ [(time, last)]) ++ rest ∧
            (Raced fs.length → time < deadline) ∧ CutOff deadline rest ∧
              r.finish = .expired (some last) stop := by
        intro stop hcut hfinish
        rcases List.eq_nil_or_concat fs with rfl | ⟨before, f, rfl⟩
        · exact ⟨[], _, e, rest, stop, hanswers, fun h => absurd h not_raced_zero, hcut, hfinish⟩
        · rw [List.map_concat, List.concat_eq_append, List.getLastD_concat] at hfinish
          rw [List.concat_eq_append] at hanswers hbefore
          refine ⟨_ :: before, f.1, f.2, rest, stop, hanswers, fun hraced => ?_, hcut, hfinish⟩
          refine Nat.lt_of_not_le fun hle => (hbefore (before.length + 1) f (by simp) hle).1 ?_
          rwa [Nat.zero_add]
      obtain ⟨finish, hend⟩ : ∃ finish, r.finish = finish := ⟨_, rfl⟩
      have hsettled : Settled _ deadline _ _ _ rest r.finish := hsettled
      rw [hend] at hsettled
      cases hsettled with
      | answered hlt => exact .inr (.inl ⟨_ :: fs, _, _, hanswers, hlt, hend⟩)
      | idle => exact .inr (.inr (hexpired _ (.inl rfl) hend))
      | cut _ hcut => exact .inr (.inr (hexpired _ (.inr ⟨_, rfl, hcut⟩) hend))
      | hung hraced => exact .inl ⟨_ :: fs, hanswers, hraced, hend⟩

end Poll

/-! ### Machines -/

namespace Machine

theorem describePeriod_pos : 0 < describePeriod := by decide

/-- How the bus is asked for a machine. -/
def asking (timeout : Nat) : Poll :=
  { period := describePeriod, period_pos := describePeriod_pos, timeout }

theorem poll_eq_run (bus : Bus σ) (s : σ) (name : String) (timeout now : Nat) :
    poll bus s name timeout now = (asking timeout).run (bus.describeMachine name) s now :=
  rfl

/-- A lookup whose times cannot be shown is over before anything is asked. -/
theorem describe_of_not_showable (bus : Bus σ) (s : σ) (name : String) {timeout now : Nat}
    (h : (asking timeout).showable now = false) :
    describe bus s name timeout now = (⟨[], .unshowable, s⟩, .unshowable) := by
  rw [describe, poll_eq_run, Poll.run, h]
  rfl

/-- Looking for a machine is a course of asking, and a look at how it ends. -/
theorem describe_eq (bus : Bus σ) (s : σ) (name : String) (timeout now : Nat)
    (hshow : (asking timeout).showable now = true) :
    ∃ h, describe bus s name timeout now =
      let r := (asking timeout).course (bus.describeMachine name) s now
      (⟨r.asked, r.finish.toEnd h, r.source⟩, lookup name (r.finish.toEnd h)) := by
  refine ⟨Poll.finish_course_ne _ _ _ _, ?_⟩
  rw [describe, poll_eq_run, Poll.run, if_pos hshow]

/-- **The first bag decides.** A machine that is found is what the first bag describes that the bus
has answered with, in time. Looking for it fails with what is wrong with that bag, the first thing
that it lacks, or because time has run out, with the last failure that came in time. If it does
neither, a question that is not raced was never answered or the clock cannot show the times.

In time is what comes before the deadline, or answers a question that is not raced. Up to the
timeout for which the counter of the questions is made that is the first question alone.

Every failure of the bus, of whatever kind, is followed by another question, unless that would not
be due before the deadline, and no bag is followed by one; so that something is wrong with a bag is
only said where there was one. -/
theorem first_bag_decides (bus : Bus σ) (s : σ) (name : String) (timeout now : Nat) :
    let d := describe bus s name timeout now
    let answers := Poll.answers (bus.describeMachine name) s d.1.asked
    let deadline := now + timeout
    (∀ machine time, d.2 = .found machine time → ∃ fs bag,
      answers = Poll.failures fs ++ [some (time, .ok bag)] ∧
        (Poll.Raced fs.length → time < deadline) ∧ MachineDescriptor.ofBag bag = .ok machine) ∧
    (∀ e time, d.2 = .failed e time →
      (∃ fs bag, answers = Poll.failures fs ++ [some (time, .ok bag)] ∧
        (Poll.Raced fs.length → time < deadline) ∧ MachineDescriptor.ofBag bag = .error e ∧
          ∃ before want behind, MachineDescriptor.wanted = before ++ want :: behind ∧
            (∀ w ∈ before, bag.Holds w) ∧ ¬ bag.Holds want ∧
              e = .property want.1 want.2.name) ∨
      ∃ fs came last rest, answers = Poll.failures (fs ++ [(came, last)]) ++ rest ∧
        (Poll.Raced fs.length → came < deadline) ∧ Poll.CutOff deadline rest ∧
          e = .timeout ("getting properties of machine " ++ name) (some last)) ∧
    (d.2 = .silent → ∃ fs, answers = Poll.failures fs ++ [none] ∧ ¬ Poll.Raced fs.length) ∧
    (timeout ≤ UInt32.size * 500 → ∀ n, n ≠ 0 → n ≤ d.1.asked.length → Poll.Raced n) ∧
    (d.2 = .unshowable → (Clock.shows deadline && Clock.shows (now + 500)) = false) ∧
    (∀ before behind came e start, answers = before ++ some (came, .error e) :: behind →
      d.1.asked[before.length]? = some start → max (start + 500) came < deadline →
        behind ≠ []) ∧
    (∀ before behind came bag, answers = before ++ some (came, .ok bag) :: behind →
      behind = []) ∧
    ∀ property expected time, d.2 = .failed (.property property expected) time →
      ∃ came bag, some (came, .ok bag) ∈ answers := by
  intro d answers deadline
  cases hshow : (asking timeout).showable now with
  | false =>
    have hd : d = (⟨[], .unshowable, s⟩, .unshowable) :=
      describe_of_not_showable bus s name hshow
    have hanswers : answers = [] := by
      show Poll.answers (bus.describeMachine name) s d.1.asked = []
      rw [hd]
      rfl
    rw [hd, hanswers]
    refine ⟨by simp, by simp, by simp, ?_, fun _ => hshow, ?_, ?_, by simp⟩
    · intro _ n hn hle
      exact absurd (Nat.le_zero.mp hle) hn
    · intro before behind came e start h
      cases before <;> cases h
    · intro before behind came bag h
      cases before <;> cases h
  | true =>
    obtain ⟨hne, hd⟩ := describe_eq bus s name timeout now hshow
    have hend := (asking timeout).course_outcome (bus.describeMachine name) s now
    have hagain := (asking timeout).course_asked_again (bus.describeMachine name) s now
    have hraced : timeout ≤ UInt32.size * 500 → ∀ n, n ≠ 0 →
        n ≤ ((asking timeout).course (bus.describeMachine name) s now).asked.length →
          Poll.Raced n :=
      fun h _ hn hle => (asking timeout).raced_of_le_length _ s now h hn hle
    generalize (asking timeout).course (bus.describeMachine name) s now = r
      at hne hd hend hagain hraced
    obtain ⟨asked, finish, source⟩ := r
    have hasked : d.1.asked = asked := congrArg (·.1.asked) hd
    have hresult : d.2 = lookup name (finish.toEnd hne) := congrArg (·.2) hd
    have hanswers : answers = Poll.answers (bus.describeMachine name) s asked :=
      congrArg _ hasked
    dsimp only at hend hagain
    rw [← hanswers] at hend hagain
    rw [hasked]
    have hretried : ∀ before behind came e start,
        answers = before ++ some (came, .error e) :: behind → asked[before.length]? = some start →
          max (start + 500) came < deadline → behind ≠ [] :=
      fun before behind came e start h hstart hlt =>
        (hagain before behind came _ h).2 start hstart hlt e rfl
    have hlast : ∀ before behind came bag,
        answers = before ++ some (came, .ok bag) :: behind → behind = [] :=
      fun before behind came bag h => (hagain before behind came _ h).1 bag rfl
    rcases hend with ⟨fs, hnever, hwaits, rfl⟩ | ⟨fs, bag, time, hfs, htime, rfl⟩ |
      ⟨fs, came, last, rest, stop, hfs, hcame, hrest, rfl⟩
    · have hresult : d.2 = .silent := hresult
      rw [hresult]
      exact ⟨by simp, by simp, fun _ => ⟨fs, hnever, hwaits⟩, hraced, by simp, hretried, hlast,
        by simp⟩
    · have hresult : d.2 = lookup name (.answered bag time) := hresult
      rw [hresult, lookup]
      cases hbag : MachineDescriptor.ofBag bag with
      | ok machine =>
        refine ⟨?_, by simp, by simp, hraced, by simp, hretried, hlast, by simp⟩
        rintro machine' time' ⟨⟩
        exact ⟨fs, bag, hfs, htime, hbag⟩
      | error e =>
        refine ⟨by simp, ?_, by simp, hraced, by simp, hretried, hlast,
          fun _ _ _ _ => ⟨time, bag, ?_⟩⟩
        · rintro e' time' ⟨⟩
          exact .inl ⟨fs, bag, hfs, htime, hbag, MachineDescriptor.ofBag_eq_error_iff.mp hbag⟩
        · rw [hfs]
          exact List.mem_append_right _ (List.mem_singleton_self _)
    · have hresult : d.2 = .failed (.timeout (lookingFor name) (some last)) stop := hresult
      rw [hresult]
      refine ⟨by simp, ?_, by simp, hraced, by simp, hretried, hlast, by simp⟩
      rintro e time ⟨⟩
      exact .inr ⟨fs, came, last, rest, hfs, hcame, hrest, rfl⟩

end Machine

end Capsule
