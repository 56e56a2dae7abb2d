import Capsule.Double

/-!
# JSON values

A JSON value as a tree. A number keeps apart what the text keeps apart: an integer that fits in
sixty-four bits, with or without sign, is `Number.integer`, and everything else, the negative zero
included, is a double. An object is the list of its members in the order in which they are
written; where order or repetition must not matter, the reader of the object says how.
-/

namespace Capsule

/-- A JSON number. -/
inductive Number
  /-- An integer from `-2 ^ 63` to `2 ^ 64 - 1`. -/
  | integer (value : Int)
  /-- A finite double. -/
  | real (value : Double)
deriving DecidableEq, Repr, Inhabited

/-- A JSON value. -/
inductive Json where
  | null
  | bool (value : Bool)
  | number (value : Number)
  | string (value : String)
  | array (items : List Json)
  | object (members : List (String × Json))
deriving Repr, Inhabited

namespace Number

/-- The integer, if it is one that an unsigned word of `bits` bits holds. -/
def natural? (bits : Nat) : Number → Option Nat
  | .integer n => if 0 ≤ n ∧ n < Nat.pow 2 bits then some n.toNat else none
  | .real _ => none

/-- The integer, if it is one that a signed word of `bits` bits holds. -/
def integer? (bits : Nat) : Number → Option Int
  | .integer n =>
    if -(Nat.pow 2 (bits - 1) : Int) ≤ n ∧ n < Nat.pow 2 (bits - 1) then some n else none
  | .real _ => none

/-- The nearest double. -/
def toDouble : Number → Double
  | .integer n => Double.ofInt n
  | .real d => d

end Number

namespace Json

/-- A natural number as a JSON value. -/
def ofNat (n : Nat) : Json := .number (.integer n)

/-- An integer as a JSON value. -/
def ofInt (n : Int) : Json := .number (.integer n)

/-- The member of an object under a key, if the value is an object that has one. -/
def member? (key : String) : Json → Option Json
  | .object ms => (ms.find? fun m => m.1 == key).map (·.2)
  | _ => none

/-- The text of a string value. -/
def text? : Json → Option String
  | .string s => some s
  | _ => none

/-- The number of a number value. -/
def number? : Json → Option Number
  | .number n => some n
  | _ => none

/-- The items of an array. -/
def items? : Json → Option (List Json)
  | .array xs => some xs
  | _ => none

/-- Where reading an item undoes writing it, and reads nothing else, a list is read if it is the
list of what is written. -/
theorem mapM_eq_some_iff_eq_map {α β : Type} {read : α → Option β} {write : β → α}
    (h : ∀ a b, read a = some b ↔ a = write b) {xs : List α} {ys : List β} :
    xs.mapM read = some ys ↔ xs = ys.map write := by
  induction xs generalizing ys with
  | nil => cases ys <;> simp
  | cons x xs ih =>
    cases ys with
    | nil => simp [Option.bind_eq_some_iff]
    | cons y ys => simp [Option.bind_eq_some_iff, h, ih]

end Json

end Capsule
