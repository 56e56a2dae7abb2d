/-!
# Hexadecimal digits
-/

namespace Capsule.Hex

/-- The value of a hexadecimal digit in either case. -/
def digit? (c : Char) : Option Nat :=
  if '0' ≤ c ∧ c ≤ '9' then some (c.toNat - '0'.toNat)
  else if 'a' ≤ c ∧ c ≤ 'f' then some (c.toNat - 'a'.toNat + 10)
  else if 'A' ≤ c ∧ c ≤ 'F' then some (c.toNat - 'A'.toNat + 10)
  else none

/-- The number that a list of hexadecimal digits denotes. -/
def number? (digits : List Char) : Option Nat := do
  let ds ← digits.mapM digit?
  pure (ds.foldl (fun n d => 16 * n + d) 0)

end Capsule.Hex
