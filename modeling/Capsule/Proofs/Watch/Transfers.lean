import Capsule.Watch

/-!
# Watching a transfer to its end

A watch is a loop without a bound: it goes on for as long as the transfer is among those that are
listed. This file says how often it lists, what it reports and when it ends, against the replies
alone, those that the source of lists gives one after the other.

## Three kinds of replies

A reply has an entry for the transfer, or it has none or is a failure, or it never comes. The first
kind keeps the watch going and the other two do not, so that a watch is described by the first reply
that is not of the first kind; `Watch.run` follows it for at most so many lists, and what it says of
a watch that goes on is what has happened so far.

What a fetch adds is the call that starts the transfer. `Bus.recorded` shows that no other call is
made, and in which order.

## Main definitions

* `Double.IsSentinel`: the patterns that say nothing of a progress
* `Watch.progress?`, `Watch.IsOver`: what a reply says of a transfer
* `Watch.told`: what the first replies report

## Main results

* `Double.isMeaningful_iff`: what is reported is what is no sentinel
* `Watch.run_of_going`, `Watch.run_of_isOver`, `Watch.run_of_never`: a watch, by its replies
* `Watch.ticks_run`: what it gives back is how often it has listed
* `Fetch.pull_then_watch`: a whole fetch
-/

namespace Capsule

/-- A pattern of sixty-four bits that says nothing of a progress: a not-a-number, whose exponent is
all ones and whose fraction is not zero, or one of the infinities, or the largest finite number with
either sign. -/
def Double.IsSentinel (d : Double) : Prop :=
  (d.bits.toNat / Nat.pow 2 52 % Nat.pow 2 11 = 2047 ∧ d.bits.toNat % Nat.pow 2 52 ≠ 0) ∨
    d.bits = 0x7FF0000000000000 ∨ d.bits = 0xFFF0000000000000 ∨
    d.bits = 0x7FEFFFFFFFFFFFFF ∨ d.bits = 0xFFEFFFFFFFFFFFFF

instance (d : Double) : Decidable d.IsSentinel := inferInstanceAs (Decidable (_ ∨ _))

/-- Every progress is reported that is no sentinel. -/
theorem Double.isMeaningful_iff (d : Double) : d.isMeaningful = true ↔ ¬ d.IsSentinel := by
  have hlt : d.bits.toNat < 2 ^ 64 := d.bits.toNat_lt
  have hlow : d.low = d.bits.toNat % 2 ^ 63 := rfl
  have h52 : Nat.pow 2 52 = 2 ^ 52 := rfl
  have h11 : Nat.pow 2 11 = 2 ^ 11 := rfl
  have hpattern (n : UInt64) : d.bits = n ↔ d.bits.toNat = n.toNat := UInt64.toNat_inj.symm
  simp only [isMeaningful, isNaN, isInfinite, isLargest, infinityBits, hlow, Bool.not_eq_true',
    Bool.or_eq_false_iff, decide_eq_false_iff_not, IsSentinel, hpattern]
  have h1 : (0x7FF0000000000000 : UInt64).toNat = 0x7FF0000000000000 := rfl
  have h2 : (0xFFF0000000000000 : UInt64).toNat = 0xFFF0000000000000 := rfl
  have h3 : (0x7FEFFFFFFFFFFFFF : UInt64).toNat = 0x7FEFFFFFFFFFFFFF := rfl
  have h4 : (0xFFEFFFFFFFFFFFFF : UInt64).toNat = 0xFFEFFFFFFFFFFFFF := rfl
  rw [h1, h2, h3, h4, h52, h11]
  omega

namespace Watch

variable {σ : Type}

/-! ### Replies -/

/-- The progress of the first entry for a transfer, if there is one. -/
def progress? (id : UInt32) : Answer (List Transfer) → Option Double
  | .after _ (.ok transfers) => (transfers.find? (·.id == id)).map (·.progress)
  | _ => none

/-- The reply has an entry for the transfer. -/
def IsGoing (id : UInt32) (a : Answer (List Transfer)) : Prop := (progress? id a).isSome = true

/-- The reply is a failure, or has no entry for the transfer. -/
def IsOver (id : UInt32) : Answer (List Transfer) → Prop
  | .after _ (.error _) => True
  | .after _ (.ok transfers) => ∀ t ∈ transfers, t.id ≠ id
  | .never => False

/-- What a reply reports. -/
def report? (id : UInt32) (a : Answer (List Transfer)) : Option Double :=
  (progress? id a).filter fun d => !decide d.IsSentinel

/-- What the first replies report, in their order. -/
def told (list : σ → Answer (List Transfer) × σ) (id : UInt32) (s : σ) (n : Nat) : List Double :=
  (List.range n).filterMap fun k => report? id (Source.reply list s k)

theorem told_succ (list : σ → Answer (List Transfer) × σ) (id : UInt32) (s : σ) (n : Nat) :
    told list id s (n + 1) = (report? id (list s).1).toList ++ told list id (list s).2 n := by
  rw [told, List.range_succ_eq_map, List.filterMap_cons, List.filterMap_map, Source.reply_zero]
  cases report? id (list s).1 <;> rfl

theorem progress?_ok (id : UInt32) (delay : Nat) (transfers : List Transfer) :
    progress? id (.after delay (.ok transfers)) =
      (transfers.find? (·.id == id)).map (·.progress) := rfl

/-- A reply is of one of three kinds. -/
theorem isGoing_or_isOver_or_eq (id : UInt32) (a : Answer (List Transfer)) :
    IsGoing id a ∨ IsOver id a ∨ a = .never := by
  rcases a with ⟨delay, e | transfers⟩ | _
  · exact .inr (.inl trivial)
  · cases h : transfers.find? (·.id == id) with
    | none => exact .inr (.inl fun t ht => by simpa using List.find?_eq_none.mp h t ht)
    | some t =>
      rw [IsGoing, progress?_ok, h]
      exact .inl rfl
  · exact .inr (.inr rfl)

theorem judge_of_isOver {id : UInt32} {delay : Nat} {outcome : Except Error (List Transfer)}
    (h : IsOver id (.after delay outcome)) : judge id outcome = .over := by
  cases outcome with
  | error e => rfl
  | ok transfers =>
    have hnone : transfers.find? (·.id == id) = none :=
      List.find?_eq_none.mpr fun t ht => by simpa using h t ht
    rw [judge, hnone]

theorem judge_of_isGoing {id : UInt32} {delay : Nat} {outcome : Except Error (List Transfer)}
    (h : IsGoing id (.after delay outcome)) :
    judge id outcome = .active (report? id (.after delay outcome)) := by
  cases outcome with
  | error e => cases h
  | ok transfers =>
    rw [IsGoing, progress?_ok, Option.isSome_map] at h
    obtain ⟨t, ht⟩ := Option.isSome_iff_exists.mp h
    rw [judge, ht, report?, progress?_ok, ht]
    have hmeaningful : t.progress.isMeaningful = !decide t.progress.IsSentinel := by
      rw [Bool.eq_iff_iff, t.progress.isMeaningful_iff]
      simp
    simp only [hmeaningful, Option.map_some, Option.filter_some]

/-! ### A watch -/

section

variable {list : σ → Answer (List Transfer) × σ} {s : σ} {n lists : Nat}

/-- A first reply that keeps the watch going is followed by the others. -/
theorem exists_run_of_isGoing (w : Watch) (now lists : Nat) (h : IsGoing w.id (list s).1) :
    ∃ w' now', w'.id = w.id ∧ run list w now (lists + 1) s =
      (run list w' now' lists (list s).2).after (w.ticker.fires now) (report? w.id (list s).1) := by
  obtain ⟨answer, s', hlist⟩ : ∃ answer s', list s = (answer, s') := ⟨_, _, rfl⟩
  rw [hlist] at h ⊢
  cases answer with
  | never => cases h
  | after delay outcome =>
    refine ⟨{ w with ticker := w.ticker.fired (w.ticker.fires now) }, w.ticker.fires now + delay,
      rfl, ?_⟩
    simp only [run, hlist, judge_of_isGoing h]

/-- **Replies that keep a watch going** are each listed and reported, and then the watch goes on as
if it began there. -/
theorem exists_run_add (w : Watch) (now m : Nat)
    (h : ∀ k < n, IsGoing w.id (Source.reply list s k)) :
    ∃ w' now' times, w'.id = w.id ∧ times.length = n ∧
      let r := run list w' now' m (Source.behind list s n)
      run list w now (n + m) s =
        { r with
          listed := times ++ r.listed
          ticks := .ofNat n + r.ticks
          reports := told list w.id s n ++ r.reports } := by
  induction n generalizing w now s with
  | zero =>
    refine ⟨w, now, [], rfl, rfl, ?_⟩
    intro r
    have hticks : (.ofNat 0 + r.ticks : UInt32) = r.ticks := UInt32.zero_add _
    rw [Nat.zero_add, hticks]
    rfl
  | succ n ih =>
    obtain ⟨w₁, now₁, hid₁, hrun₁⟩ :=
      exists_run_of_isGoing (s := s) w now (n + m) (h 0 (Nat.succ_pos n))
    obtain ⟨w', now', times, hid, hlength, hrun⟩ := ih (s := (list s).2) w₁ now₁ fun k hk => by
      rw [hid₁]
      exact h (k + 1) (Nat.succ_lt_succ hk)
    refine ⟨w', now', w.ticker.fires now :: times, hid.trans hid₁, congrArg (· + 1) hlength, ?_⟩
    intro r
    have hticks : (.ofNat (n + 1) + r.ticks : UInt32) = 1 + (.ofNat n + r.ticks) := by
      rw [Nat.add_comm, UInt32.ofNat_add, UInt32.add_assoc]
      rfl
    rw [Nat.add_right_comm, hrun₁, hrun, hid₁, told_succ, List.append_assoc, hticks]
    rfl

/-- **A watch that goes on** has listed as often as it was followed. -/
theorem run_of_going (w : Watch) (now : Nat)
    (h : ∀ k < lists, IsGoing w.id (Source.reply list s k)) :
    let r := run list w now lists s
    r.listed.length = lists ∧ (∃ time, r.finish = .active time) ∧
      r.reports = told list w.id s lists := by
  obtain ⟨w', now', times, -, hlength, hrun⟩ := exists_run_add w now 0 h
  rw [Nat.add_zero] at hrun
  rw [hrun]
  refine ⟨?_, ⟨now', rfl⟩, ?_⟩
  · simpa [run] using hlength
  · simp [run]

theorem run_of_isOver_first (w : Watch) (now m : Nat) (h : IsOver w.id (list s).1) :
    ∃ time, run list w now (m + 1) s = ⟨[w.ticker.fires now], 1, [], .over time, (list s).2⟩ := by
  obtain ⟨answer, s', hlist⟩ : ∃ answer s', list s = (answer, s') := ⟨_, _, rfl⟩
  rw [hlist] at h ⊢
  cases answer with
  | never => cases h
  | after delay outcome =>
    simp only [run, hlist, judge_of_isOver h]
    exact ⟨_, rfl⟩

/-- **A watch that ends** has listed up to the first reply that is over. -/
theorem run_of_isOver (w : Watch) (now : Nat) (hn : n < lists)
    (h : ∀ k < n, IsGoing w.id (Source.reply list s k))
    (hover : IsOver w.id (Source.reply list s n)) :
    let r := run list w now lists s
    r.listed.length = n + 1 ∧ (∃ time, r.finish = .over time) ∧
      r.reports = told list w.id s n := by
  obtain ⟨m, rfl⟩ := Nat.exists_eq_add_of_lt hn
  obtain ⟨w', now', times, hid, hlength, hrun⟩ := exists_run_add w now (m + 1) h
  obtain ⟨time, hlast⟩ := run_of_isOver_first w' now' m (hid ▸ hover)
  rw [Nat.add_assoc, hrun, hlast]
  refine ⟨?_, ⟨time, rfl⟩, List.append_nil _⟩
  simpa using hlength

/-- The first of two entries counts, and a not-a-number is left out, as is another transfer. -/
example :
    let entry (id : UInt32) (bits : UInt64) : Transfer := ⟨id, ⟨bits⟩, "tar", "", "web"⟩
    let list : Nat → Answer (List Transfer) × Nat
      | 0 => (.after 5 (.ok [entry 7 0, entry 1 3, entry 1 4]), 1)
      | 1 => (.after 5 (.ok [entry 1 0x7FF8000000000000]), 2)
      | n => (.after 5 (.ok [entry 7 0]), n + 1)
    run list (.start 1 "web" 0) 0 9 0 = ⟨[2000, 4000, 6000], 3, [⟨3⟩], .over 6005, 3⟩ := by
  rfl

/-- A watch that waits for a reply in vain has asked for it. -/
theorem run_of_never (w : Watch) (now : Nat) (hn : n < lists)
    (h : ∀ k < n, IsGoing w.id (Source.reply list s k)) (hnever : Source.reply list s n = .never) :
    let r := run list w now lists s
    r.listed.length = n + 1 ∧ r.finish = .silent ∧ r.reports = told list w.id s n := by
  obtain ⟨m, rfl⟩ := Nat.exists_eq_add_of_lt hn
  obtain ⟨w', now', times, -, hlength, hrun⟩ := exists_run_add w now (m + 1) h
  have hlist : list (Source.behind list s n) = (.never, (list (Source.behind list s n)).2) :=
    Prod.ext hnever rfl
  have hlast : run list w' now' (m + 1) (Source.behind list s n) =
      ⟨[w'.ticker.fires now'], 1, [], .silent, (list (Source.behind list s n)).2⟩ := by
    rw [run, hlist]
  rw [Nat.add_assoc, hrun, hlast]
  refine ⟨?_, rfl, List.append_nil _⟩
  simpa using hlength

end

/-- Some replies keep the watch going, all of them or up to one that does not. -/
theorem going_or_exists (list : σ → Answer (List Transfer) × σ) (id : UInt32) (s : σ)
    (lists : Nat) :
    (∀ k < lists, IsGoing id (Source.reply list s k)) ∨
      ∃ n < lists, (∀ k < n, IsGoing id (Source.reply list s k)) ∧
        (IsOver id (Source.reply list s n) ∨ Source.reply list s n = .never) := by
  induction lists with
  | zero => exact .inl nofun
  | succ lists ih =>
    rcases ih with hall | ⟨n, hn, hgoing, hstop⟩
    · rcases isGoing_or_isOver_or_eq id (Source.reply list s lists) with hgoing | hstop
      · refine .inl fun k hk => ?_
        rcases Nat.lt_succ_iff_lt_or_eq.mp hk with hk | rfl
        · exact hall k hk
        · exact hgoing
      · exact .inr ⟨lists, Nat.lt_succ_self lists, hall, hstop⟩
    · exact .inr ⟨n, Nat.lt_succ_of_lt hn, hgoing, hstop⟩

/-- A watch that has ended has seen a reply that is over, and kept going up to that. -/
theorem exists_isOver_of_finish {list : σ → Answer (List Transfer) × σ} {w : Watch}
    {now lists time : Nat} {s : σ} (h : (run list w now lists s).finish = .over time) :
    ∃ n < lists, (∀ k < n, IsGoing w.id (Source.reply list s k)) ∧
      IsOver w.id (Source.reply list s n) := by
  rcases going_or_exists list w.id s lists with hgoing | ⟨n, hn, hgoing, hover | hnever⟩
  · obtain ⟨-, ⟨_, hactive⟩, -⟩ := run_of_going w now hgoing
    cases hactive.symm.trans h
  · exact ⟨n, hn, hgoing, hover⟩
  · obtain ⟨-, hsilent, -⟩ := run_of_never w now hn hgoing hnever
    cases hsilent.symm.trans h

/-- A watch counts its lists, by a counter that comes round. -/
theorem ticks_run (list : σ → Answer (List Transfer) × σ) (w : Watch) (now lists : Nat) (s : σ) :
    let r := run list w now lists s
    r.ticks = .ofNat r.listed.length := by
  induction lists generalizing w now s with
  | zero => rfl
  | succ lists ih =>
    obtain ⟨answer, s', hlist⟩ : ∃ answer s', list s = (answer, s') := ⟨_, _, rfl⟩
    simp only [run, hlist]
    cases answer with
    | never => rfl
    | after delay outcome =>
      dsimp only
      cases judge w.id outcome with
      | «over» => rfl
      | active progress =>
        simp only [Run.after, List.length_cons, ih]
        rw [UInt32.ofNat_add, UInt32.add_comm]
        rfl

/-- A watch asks for lists, and for nothing else. -/
theorem run_recorded (bus : Bus σ) (w : Watch) (now lists : Nat) (s : σ) (calls : List Call) :
    let r := run bus.listTransfers w now lists s
    run bus.recorded.listTransfers w now lists (s, calls) =
      ⟨r.listed, r.ticks, r.reports, r.finish,
        (r.source, calls ++ List.replicate r.listed.length .listTransfers)⟩ := by
  induction lists generalizing w now s calls with
  | zero => simp [run]
  | succ lists ih =>
    obtain ⟨answer, s', hlist⟩ : ∃ answer s', bus.listTransfers s = (answer, s') := ⟨_, _, rfl⟩
    have hrecorded : bus.recorded.listTransfers (s, calls) =
        (answer, s', calls ++ [.listTransfers]) := by
      simp only [Bus.recorded, hlist]
    simp only [run, hrecorded, hlist]
    cases answer with
    | never => rfl
    | after delay outcome =>
      cases hjudge : judge w.id outcome with
      | «over» => simp only [hjudge]; rfl
      | active progress =>
        simp only [hjudge, ih, Run.after, List.length_cons, List.replicate_succ, List.append_assoc]
        rfl

end Watch

namespace Fetch

variable {σ : Type}

/-- What a fetch gives back, once it gives anything back. -/
def result? : Fetch σ → Option (Except Error Unit)
  | .refused e _ _ => some (.error e)
  | .silent _ => none
  | .watched r =>
    match r.finish with
    | .over _ => some (.ok ())
    | _ => none

/-- The bus behind a fetch. -/
def source : Fetch σ → σ
  | .refused _ _ s => s
  | .silent s => s
  | .watched r => r.source

/-- What a fetch has reported. -/
def reports : Fetch σ → List Double
  | .watched r => r.reports
  | _ => []

theorem recorded_pull (bus : Bus σ) {request : PullRequest} {s s' : σ}
    {answer : Answer StartedTransfer} (h : bus.pull request s = (answer, s')) :
    bus.recorded.pull request (s, []) = (answer, s', [.pull request]) := by
  simp only [Bus.recorded, h]
  rfl

/-- **A fetch is one call that starts the transfer, and a watch.** If that call fails, its error is
given back and nothing is listed; else the fetch comes to a good end exactly if the watch of the
transfer that was started ends.

A watch lists up to the first reply that is a failure or has no entry for the transfer; as long as
there is none it goes on. What it reports are the progresses of the first entries for the transfer
in the replies before that, in their order and without the sentinels. -/
theorem pull_then_watch (bus : Bus σ) (request : PullRequest) (s : σ) :
    (∀ now lists,
      let r := Fetch.run bus.recorded (s, []) request now lists
      (∀ s', bus.pull request s = (.never, s') →
        r.result? = none ∧ r.reports = [] ∧ r.source = (s', [.pull request])) ∧
      (∀ delay e s', bus.pull request s = (.after delay (.error e), s') →
        r.result? = some (.error e) ∧ r.reports = [] ∧ r.source = (s', [.pull request])) ∧
      ∀ delay started s', bus.pull request s = (.after delay (.ok started), s') →
        let watch := Watch.run bus.listTransfers (.start started.id request.name (now + delay))
          (now + delay) lists s'
        (r.result? = some (.ok ()) ↔ ∃ time, watch.finish = .over time) ∧
          (∀ e, r.result? ≠ some (.error e)) ∧ r.reports = watch.reports ∧
          r.source = (watch.source,
            .pull request :: List.replicate watch.listed.length .listTransfers)) ∧
    ∀ (list : σ → Answer (List Transfer) × σ) (w : Watch) (now lists : Nat) (s : σ),
      let r := Watch.run list w now lists s
      let reply := Source.reply list s
      (∀ n < lists, (∀ k < n, Watch.IsGoing w.id (reply k)) →
        (Watch.IsOver w.id (reply n) → r.listed.length = n + 1 ∧
          (∃ time, r.finish = .over time) ∧ r.reports = Watch.told list w.id s n) ∧
        (reply n = .never → r.listed.length = n + 1 ∧
          r.finish = .silent ∧ r.reports = Watch.told list w.id s n)) ∧
      ((∀ k < lists, Watch.IsGoing w.id (reply k)) → r.listed.length = lists ∧
        (∃ time, r.finish = .active time) ∧ r.reports = Watch.told list w.id s lists) ∧
      ((∀ k, ¬ Watch.IsOver w.id (reply k)) → ∀ time, r.finish ≠ .over time) := by
  constructor
  · intro now lists r
    refine ⟨fun s' hpull => ?_, fun delay e s' hpull => ?_, fun delay started s' hpull => ?_⟩
    · simp only [r, run, recorded_pull bus hpull]
      exact ⟨rfl, rfl, rfl⟩
    · simp only [r, run, recorded_pull bus hpull]
      exact ⟨rfl, rfl, rfl⟩
    · intro watch
      have hr : r = .watched ⟨watch.listed, watch.ticks, watch.reports, watch.finish,
          (watch.source,
            .pull request :: List.replicate watch.listed.length .listTransfers)⟩ := by
        simp only [r, run, recorded_pull bus hpull, Watch.run_recorded]
        rfl
      rw [hr]
      cases watch.finish <;> simp [result?, reports, source]
  · intro list w now lists s r reply
    refine ⟨fun n hn hgoing => ⟨fun hover => ?_, fun hnever => ?_⟩, fun hgoing => ?_,
      fun hnone time h => ?_⟩
    · exact Watch.run_of_isOver w now hn hgoing hover
    · exact Watch.run_of_never w now hn hgoing hnever
    · exact Watch.run_of_going w now hgoing
    · obtain ⟨n, -, -, hover⟩ := Watch.exists_isOver_of_finish h
      exact hnone n hover

end Fetch

end Capsule
