import Capsule.Bus.Call
import Capsule.Time.Ticker

/-!
# Watching transfers

A transfer that has been started is watched by listing all transfers every two seconds, until it is
not among them any more or the list cannot be had; whether it was finished or broken off is not
known. While it is there its progress is reported, if it says anything.

`Watch.judge` is what one list means, `Watch.run` follows a source of lists for at most so many of
them, and `Fetch.run` first starts the transfer and then watches it.
-/

namespace Capsule

/-- A transfer that is being watched. -/
structure Watch where
  id : UInt32
  /-- The name of the image that is being fetched. -/
  image : String
  ticker : Ticker
deriving DecidableEq, Repr, Inhabited

namespace Watch

/-- How often transfers are listed. -/
def period : Nat := 2000

/-- Begins to watch a transfer. -/
def start (id : UInt32) (image : String) (now : Nat) : Watch := ⟨id, image, .start period now⟩

/-- What a list of transfers says of one of them. -/
inductive Verdict
  | over
  /-- It is going on; its progress, if that says anything. -/
  | active (progress : Option Double)
deriving DecidableEq, Repr

/-- What an attempt to list the transfers says of one of them. -/
def judge (id : UInt32) : Except Error (List Transfer) → Verdict
  | .error _ => .over
  | .ok transfers =>
    match transfers.find? (·.id == id) with
    | none => .over
    | some t => .active (if t.progress.isMeaningful then some t.progress else none)

/-- How watching ends. -/
inductive End
  | over (time : Nat)
  /-- A list that was asked for never comes. -/
  | silent
  /-- It has not ended so far. -/
  | active (now : Nat)
deriving DecidableEq, Repr

/-- A course of watching: the times of the lists, how many they are by a counter of thirty-two bits,
the progress that was reported, the end, and the source behind it. -/
structure Run (σ : Type) where
  listed : List Nat
  ticks : UInt32
  reports : List Double
  finish : End
  source : σ

/-- The same course with a list before it. -/
def Run.after {σ : Type} (time : Nat) (report : Option Double) (r : Run σ) : Run σ :=
  { r with
    listed := time :: r.listed
    ticks := 1 + r.ticks
    reports := report.toList ++ r.reports }

/-- Watches for at most so many lists. -/
def run {σ : Type} (list : σ → Answer (List Transfer) × σ) (w : Watch) (now : Nat) :
    Nat → σ → Run σ
  | 0, s => ⟨[], 0, [], .active now, s⟩
  | n + 1, s =>
    let start := w.ticker.fires now
    match list s with
    | (.never, s) => ⟨[start], 1, [], .silent, s⟩
    | (.after delay outcome, s) =>
      match judge w.id outcome with
      | .over => ⟨[start], 1, [], .over (start + delay), s⟩
      | .active progress =>
        let w := { w with ticker := w.ticker.fired start }
        (run list w (start + delay) n s).after start progress

end Watch

/-- A course of fetching an image. -/
inductive Fetch (σ : Type)
  /-- The transfer could not be started. -/
  | refused (error : Error) (time : Nat) (source : σ)
  /-- The call that starts the transfer is never answered. -/
  | silent (source : σ)
  | watched (run : Watch.Run σ)

/-- Fetches an image, watching the transfer for at most so many lists. -/
def Fetch.run {σ : Type} (bus : Bus σ) (s : σ) (request : PullRequest) (now lists : Nat) :
    Fetch σ :=
  match bus.pull request s with
  | (.never, s) => .silent s
  | (.after delay (.error e), s) => .refused e (now + delay) s
  | (.after delay (.ok started), s) =>
    let now := now + delay
    .watched (Watch.run bus.listTransfers (.start started.id request.name now) now lists s)

end Capsule
