import Capsule.Schedule

/-!
# Fetching on the way to a launch

An image is fetched in two places: by a command of its own, as `Fetch.run`, and on the way to a
launch, where the fetch is cut at its waits and spread over the stages of a preparation. This file
proves that the second is the first: a preparation that pulls makes the same calls, reports the same
progress under the name of the image, and goes on looking for the image at the time and with the bus
that the fetch has ended with, or fails with its error, or waits for what never comes.

Each list takes two steps of a preparation, one to the tick and one to the list.

## Main results

* `Preparation.follow_watch`: a watch on the way
* `Preparation.follow_fetch`: a fetch on the way
-/

namespace Capsule

/-- The calls of a log, in their order. -/
def Log.calls (log : Log) : List Call := log.flatMap (·.2.calls)

/-- What a log reports, in its order. -/
def Log.reports (log : Log) : List Progress := log.flatMap (·.2.reports)

namespace Preparation

variable {σ : Type} {bus : Bus σ}

/-- A preparation that waits for a tick, and reports. -/
def pauseWith (config : Config) (w : Watch) (report : Option Progress) : Advance :=
  { pause config w with report }

/-- What happens in the two steps that a list takes. -/
def roundLog (w : Watch) (now : Nat) (report : Option Progress) : Log :=
  [(now, { reports := report.toList }), (w.ticker.fires now, { calls := [.listTransfers] })]

theorem calls_roundLog_append (w : Watch) (now : Nat) (report : Option Progress) (log : Log) :
    Log.calls (roundLog w now report ++ log) = .listTransfers :: log.calls := rfl

theorem reports_roundLog_append (w : Watch) (now : Nat) (report : Option Progress) (log : Log) :
    Log.reports (roundLog w now report ++ log) = report.toList ++ log.reports := rfl

theorem reports_roundLog (w : Watch) (now : Nat) (report : Option Progress) :
    (roundLog w now report).reports = report.toList := List.append_nil _

/-- A list that never comes. -/
theorem follow_round_never (host : Host) (config : Config) (w : Watch) {s s' : σ}
    (h : bus.listTransfers s = (.never, s')) (n now : Nat) (report : Option Progress) :
    follow bus host (n + 2) now (pauseWith config w report) s =
      (roundLog w now report, .silent, w.ticker.fires now, s') := by
  simp only [follow, pauseWith, pause, next, resume, ask, h, Due.ofAnswer]
  rfl

/-- A list that comes. -/
theorem follow_round (host : Host) (config : Config) (w : Watch) {s s' : σ} {delay : Nat}
    {outcome : Except Error (List Transfer)}
    (h : bus.listTransfers s = (.after delay outcome, s')) (n now : Nat)
    (report : Option Progress) :
    let rest := follow bus host n (w.ticker.fires now + delay)
      (match Watch.judge w.id outcome with
        | .over => locate host config
        | .active progress =>
          pauseWith config { w with ticker := w.ticker.fired (w.ticker.fires now) }
            (progress.map (⟨w.image, ·⟩))) s'
    follow bus host (n + 2) now (pauseWith config w report) s =
      (roundLog w now report ++ rest.1, rest.2) := by
  intro rest
  simp only [follow, pauseWith, pause, next, resume, ask, h, Due.ofAnswer]
  simp only [rest]
  cases Watch.judge w.id outcome <;> rfl

/-- A course with a log before it. -/
def behindLog {α : Type} (log : Log) (rest : Log × α) : Log × α := (log ++ rest.1, rest.2)

/-- What a preparation that watches has come to, against the watch: it looks for the image, or waits
in vain, or watches on, with a report that is still to be made. -/
def Watched (bus : Bus σ) (host : Host) (config : Config) (steps : Nat) (log : Log)
    (late : Option Progress) (r : Watch.Run σ) (p : Log × End × Nat × σ) : Prop :=
  match r.finish with
  | .over time =>
    late = none ∧ p = behindLog log (follow bus host steps time (locate host config) r.source)
  | .silent => late = none ∧ ∃ time, p = (log, .silent, time, r.source)
  | .active time => ∃ w, p = behindLog log (follow bus host steps time (pauseWith config w late)
      r.source)

/-- What a preparation has come to, with a log before it and against a longer watch. -/
theorem Watched.behind {host : Host} {config : Config} {steps : Nat} {log : Log}
    {late : Option Progress} {r r' : Watch.Run σ} {p : Log × End × Nat × σ}
    (h : Watched bus host config steps log late r p) (first : Log)
    (hfinish : r'.finish = r.finish) (hsource : r'.source = r.source) :
    Watched bus host config steps (first ++ log) late r' (behindLog first p) := by
  rw [Watched] at h ⊢
  rw [hfinish, hsource]
  cases hr : r.finish with
  | «over» time =>
    rw [hr] at h
    obtain ⟨hlate, rfl⟩ := h
    exact ⟨hlate, by rw [behindLog, behindLog, behindLog, List.append_assoc]⟩
  | silent =>
    rw [hr] at h
    obtain ⟨hlate, time, rfl⟩ := h
    exact ⟨hlate, time, rfl⟩
  | active time =>
    rw [hr] at h
    obtain ⟨w, rfl⟩ := h
    exact ⟨w, by rw [behindLog, behindLog, behindLog, List.append_assoc]⟩

/-- **A watch on the way.** -/
theorem follow_watch (bus : Bus σ) (host : Host) (config : Config) (w : Watch)
    (now lists steps : Nat) (report : Option Progress) (s : σ) :
    let r := Watch.run bus.listTransfers w now lists s
    ∃ log : Log, ∃ late, log.calls = List.replicate r.listed.length .listTransfers ∧
      log.reports ++ late.toList = report.toList ++ r.reports.map (⟨w.image, ·⟩) ∧
      Watched bus host config steps log late r
        (follow bus host (2 * r.listed.length + steps) now (pauseWith config w report) s) := by
  induction lists generalizing w now report s with
  | zero =>
    refine ⟨[], report, rfl, (List.append_nil _).symm, w, ?_⟩
    simp only [Watch.run, List.length_nil, Nat.mul_zero, Nat.zero_add]
    rfl
  | succ lists ih =>
    obtain ⟨answer, s', hlist⟩ : ∃ answer s', bus.listTransfers s = (answer, s') := ⟨_, _, rfl⟩
    cases answer with
    | never =>
      simp only [Watch.run, hlist]
      refine ⟨roundLog w now report, none, rfl, ?_, rfl, w.ticker.fires now, ?_⟩
      · rw [reports_roundLog]
        rfl
      · rw [List.length_singleton, Nat.add_comm, follow_round_never host config w hlist]
    | after delay outcome =>
      have hround := follow_round host config w hlist
      cases hjudge : Watch.judge w.id outcome with
      | «over» =>
        simp only [Watch.run, hlist, hjudge] at hround ⊢
        refine ⟨roundLog w now report, none, rfl, ?_, rfl, ?_⟩
        · rw [reports_roundLog]
          rfl
        · rw [List.length_singleton, Nat.add_comm, hround]
          rfl
      | active progress =>
        simp only [Watch.run, hlist, hjudge] at hround ⊢
        let w' : Watch := { w with ticker := w.ticker.fired (w.ticker.fires now) }
        obtain ⟨log, late, hcalls, hreports, hp⟩ :=
          ih w' (w.ticker.fires now + delay) (progress.map (⟨w.image, ·⟩)) s'
        refine ⟨roundLog w now report ++ log, late, ?_, ?_, ?_⟩
        · rw [calls_roundLog_append, hcalls]
          rfl
        · rw [reports_roundLog_append, List.append_assoc, hreports]
          cases progress <;> rfl
        · rw [Watch.Run.after, List.length_cons, Nat.mul_succ, Nat.add_right_comm, hround]
          exact hp.behind (roundLog w now report) rfl rfl

/-- **A fetch on the way.** A preparation that pulls fails with the error of the fetch or waits in
vain with it; or it makes one call to start the transfer, and watches that. -/
theorem follow_fetch (bus : Bus σ) (host : Host) (config : Config) (request : PullRequest)
    (now lists steps : Nat) (s : σ) :
    let pulling := ask config (.pulling request) (.pull request)
    let pulled : Effects := { calls := [.pull request] }
    match Fetch.run bus s request now lists with
    | .refused e time s' => follow bus host (steps + 2) now pulling s =
        ([(now, pulled), (time, {})], .failed e, time, s')
    | .silent s' => follow bus host (steps + 1) now pulling s =
        ([(now, pulled)], .silent, now, s')
    | .watched r => ∃ log : Log, ∃ late,
        log.calls = .pull request :: List.replicate r.listed.length .listTransfers ∧
        log.reports ++ late.toList = r.reports.map (⟨request.name, ·⟩) ∧
        Watched bus host config steps log late r
          (follow bus host (2 * r.listed.length + steps + 1) now pulling s) := by
  intro pulling pulled
  obtain ⟨answer, s', hpull⟩ : ∃ answer s', bus.pull request s = (answer, s') := ⟨_, _, rfl⟩
  rcases answer with ⟨delay, e | started⟩ | _
  · simp only [Fetch.run, hpull]
    simp only [follow, pulling, ask, next, hpull, Due.ofAnswer, resume, fail]
    rfl
  · simp only [Fetch.run, hpull]
    let w := Watch.start started.id request.name (now + delay)
    have hfirst (n : Nat) : follow bus host (n + 1) now pulling s =
        behindLog [(now, pulled)]
          (follow bus host n (now + delay) (pauseWith config w none) s') := by
      simp only [follow, pulling, ask, next, hpull, Due.ofAnswer, resume]
      rfl
    obtain ⟨log, late, hcalls, hreports, hp⟩ :=
      follow_watch bus host config w (now + delay) lists steps none s'
    refine ⟨(now, pulled) :: log, late, congrArg _ hcalls, hreports, ?_⟩
    rw [hfirst]
    exact hp.behind [(now, pulled)] rfl rfl
  · simp only [Fetch.run, hpull]
    simp only [follow, pulling, ask, next, hpull, Due.ofAnswer]
    rfl

end Preparation

end Capsule
