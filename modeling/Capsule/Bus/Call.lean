import Capsule.Bus.Property
import Capsule.Bus.Transfer

/-!
# The bus

Four things are asked of the system's bus: what is known of a machine or of an image, which
transfers are going on, and to start a new one. A call is answered after some time or never; and a
`Bus` is a way of answering calls, one after the other, from a state of its own. `Bus.recorded` is
the same bus, which keeps the calls. Who asks for one thing only has a source of answers:
`Source.reply` is what it gives, one question after the other, whoever asks.
-/

namespace Capsule

/-- A call of the bus. -/
inductive Call
  | describeMachine (name : String)
  | describeImage (name : String)
  | listTransfers
  | pull (request : PullRequest)
deriving DecidableEq, Repr, Inhabited

/-- What becomes of a call. -/
inductive Answer (α : Type)
  | after (delay : Nat) (outcome : Except Error α)
  | never

instance {α : Type} : Inhabited (Answer α) := ⟨.never⟩

/-- The same answer, in terms of another outcome. -/
def Answer.map {α β : Type} (f : Except Error α → Except Error β) : Answer α → Answer β
  | .after delay outcome => .after delay (f outcome)
  | .never => .never

theorem Answer.map_eq_after_iff {α β : Type} {f : Except Error α → Except Error β} {a : Answer α}
    {delay : Nat} {outcome : Except Error β} :
    a.map f = .after delay outcome ↔ ∃ given, a = .after delay given ∧ f given = outcome := by
  cases a with
  | never => simp [map]
  | after time given =>
    constructor
    · intro h
      cases h
      exact ⟨given, rfl, rfl⟩
    · rintro ⟨_, ⟨⟩, rfl⟩
      rfl

/-- The state of a source of answers behind so many questions. -/
def Source.behind {σ α : Type} (ask : σ → Answer α × σ) : σ → Nat → σ
  | s, 0 => s
  | s, n + 1 => behind ask (ask s).2 n

/-- What a source answers to the questions, one after the other. -/
def Source.reply {σ α : Type} (ask : σ → Answer α × σ) (s : σ) (n : Nat) : Answer α :=
  (ask (behind ask s n)).1

theorem Source.reply_zero {σ α : Type} (ask : σ → Answer α × σ) (s : σ) :
    reply ask s 0 = (ask s).1 := rfl

theorem Source.reply_succ {σ α : Type} (ask : σ → Answer α × σ) (s : σ) (n : Nat) :
    reply ask s (n + 1) = reply ask (ask s).2 n := rfl

/-- A bus with a state: what it answers to each call, and its state behind the answer. -/
structure Bus (σ : Type) where
  describeMachine : String → σ → Answer PropertyBag × σ
  describeImage : String → σ → Answer PropertyBag × σ
  listTransfers : σ → Answer (List Transfer) × σ
  pull : PullRequest → σ → Answer StartedTransfer × σ

/-- A bus that also keeps the calls, in the order in which they were made. -/
def Bus.recorded {σ : Type} (bus : Bus σ) : Bus (σ × List Call) where
  describeMachine name s :=
    let (a, s') := bus.describeMachine name s.1
    (a, s', s.2 ++ [.describeMachine name])
  describeImage name s :=
    let (a, s') := bus.describeImage name s.1
    (a, s', s.2 ++ [.describeImage name])
  listTransfers s :=
    let (a, s') := bus.listTransfers s.1
    (a, s', s.2 ++ [.listTransfers])
  pull request s :=
    let (a, s') := bus.pull request s.1
    (a, s', s.2 ++ [.pull request])

end Capsule
