/-!
# Tickers

A ticker fires once a period, for the first time one period after it was started. A tick that is
asked for late fires at once, and the next one is due a whole period after it, so that ticks are
never closer to each other than a period and none is made up for.

Times are milliseconds on the clock of a system, which has run since that was started.
-/

namespace Capsule

/-- A ticker: its period, and the time when its next tick is due. -/
structure Ticker where
  period : Nat
  due : Nat
deriving DecidableEq, Repr, Inhabited

namespace Ticker

/-- A ticker that starts now. -/
def start (period now : Nat) : Ticker := ⟨period, now + period⟩

/-- When the tick fires that is asked for now. -/
def fires (t : Ticker) (now : Nat) : Nat := max t.due now

/-- The ticker behind a tick that fired at a time. -/
def fired (t : Ticker) (time : Nat) : Ticker := ⟨t.period, time + t.period⟩

end Ticker

/-- The last second that the clock can show. A time beyond it is no time at all. -/
def Clock.lastSecond : Nat := Nat.pow 2 63 - 1

/-- Whether the clock can show a time. -/
def Clock.shows (time : Nat) : Bool := time / 1000 ≤ lastSecond

end Capsule
