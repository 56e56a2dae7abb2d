/-!
# The ids of tasks

An id is any text. `TaskId.ofBytes` makes one of sixteen random bytes in the usual form of a random
identifier: thirty-two hexadecimal digits in five groups, two of which say what the identifier is.
-/

namespace Capsule

/-- The id of a task. -/
abbrev TaskId := String

namespace TaskId

/-- The two hexadecimal digits of a byte. -/
def byteChars (b : UInt8) : List Char :=
  [Nat.digitChar (b.toNat / 16), Nat.digitChar (b.toNat % 16)]

/-- The byte with its upper half replaced by the mark of random identifiers. -/
def versionByte (b : UInt8) : UInt8 := 0x40 ||| (b &&& 0x0F)

/-- The byte with its two upper bits replaced by the mark of the common layout. -/
def variantByte (b : UInt8) : UInt8 := 0x80 ||| (b &&& 0x3F)

/-- The id made of sixteen bytes. -/
def ofBytes (bytes : Fin 16 → UInt8) : TaskId :=
  let char (i : Fin 16) : List Char :=
    let digits :=
      byteChars (if i = 6 then versionByte (bytes i)
        else if i = 8 then variantByte (bytes i) else bytes i)
    if i = 4 ∨ i = 6 ∨ i = 8 ∨ i = 10 then '-' :: digits else digits
  String.ofList ((List.finRange 16).flatMap char)

/-- The first eight letters and digits of an id. -/
def stem (id : TaskId) : String :=
  String.ofList ((id.toList.filter Char.isAlphanum).take 8)

/-- The name of a machine whose configuration names none. -/
def machineName (id : TaskId) (taskName : String) : String := taskName ++ "-" ++ stem id

end TaskId

end Capsule
