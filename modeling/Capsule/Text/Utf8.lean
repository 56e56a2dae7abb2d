/-!
# UTF-8

Bytes to characters and back. Well-formed UTF-8 is decided one scalar at a time by `lead`, which
gives for a leading byte how many continuation bytes follow and which range the first of them
must lie in; that range is what excludes overlong forms, surrogates and code points past
U+10FFFF.

Four readings are offered:

* `Utf8.decode?` refuses a text that is not well-formed;
* `Utf8.split` gives the longest well-formed beginning and the bytes after it;
* `Utf8.lossy` replaces each ill-formed piece by U+FFFD, where a piece is the longest run of
  bytes that could still have begun a character, and at least one byte;
* `Utf8.marked` replaces each byte of an ill-formed piece by U+007F, so that no length changes.
-/

namespace Capsule.Utf8

/-- What a leading byte announces: its own payload bits, the number of continuation bytes, and
the range of the first of these. -/
structure Lead where
  payload : Nat
  count : Nat
  low : Nat
  high : Nat

/-- The announcement of a leading byte, if the byte can lead a character at all. -/
def lead (b : Nat) : Option Lead :=
  if b < 0x80 then some ⟨b, 0, 0, 0⟩
  else if b < 0xC2 then none
  else if b < 0xE0 then some ⟨b - 0xC0, 1, 0x80, 0xBF⟩
  else if b = 0xE0 then some ⟨0, 2, 0xA0, 0xBF⟩
  else if b = 0xED then some ⟨0x0D, 2, 0x80, 0x9F⟩
  else if b < 0xF0 then some ⟨b - 0xE0, 2, 0x80, 0xBF⟩
  else if b = 0xF0 then some ⟨0, 3, 0x90, 0xBF⟩
  else if b < 0xF4 then some ⟨b - 0xF0, 3, 0x80, 0xBF⟩
  else if b = 0xF4 then some ⟨4, 3, 0x80, 0x8F⟩
  else none

/-- Reads `count` continuation bytes, the first of them within the given range. Gives how many
were read, the code point they make with the payload so far, and what is left. -/
def continuation : Nat → Nat → Nat → Nat → List UInt8 → Nat × Nat × List UInt8
  | 0, _, _, acc, bs => (0, acc, bs)
  | _ + 1, _, _, acc, [] => (0, acc, [])
  | n + 1, low, high, acc, b :: bs =>
    if low ≤ b.toNat ∧ b.toNat ≤ high then
      let (k, acc', rest) := continuation n 0x80 0xBF (acc * 64 + (b.toNat - 0x80)) bs
      (k + 1, acc', rest)
    else (0, acc, b :: bs)

theorem length_continuation (n low high acc : Nat) (bs : List UInt8) :
    (continuation n low high acc bs).2.2.length ≤ bs.length := by
  induction n generalizing low high acc bs with
  | zero => simp [continuation]
  | succ n ih =>
    cases bs with
    | nil => simp [continuation]
    | cons b bs =>
      simp only [continuation]
      split
      · exact Nat.le_succ_of_le (ih 0x80 0xBF (acc * 64 + (b.toNat - 0x80)) bs)
      · simp

/-- The first character of a non-empty text, or `none` when the text begins with an ill-formed
piece, together with what follows the character or the piece. -/
def next (b : UInt8) (bs : List UInt8) : Option Char × List UInt8 :=
  match lead b.toNat with
  | none => (none, bs)
  | some l =>
    let (k, code, rest) := continuation l.count l.low l.high l.payload bs
    if k = l.count then (some (Char.ofNat code), rest) else (none, rest)

theorem length_next (b : UInt8) (bs : List UInt8) : (next b bs).2.length ≤ bs.length := by
  unfold next
  split
  · simp
  · rename_i l _
    have := length_continuation l.count l.low l.high l.payload bs
    simp only
    split <;> exact this

/-- The longest well-formed beginning as characters, and the bytes after it. -/
def split : List UInt8 → List Char × List UInt8
  | [] => ([], [])
  | b :: bs =>
    match h : next b bs with
    | (none, _) => ([], b :: bs)
    | (some c, rest) =>
      have : rest.length < (b :: bs).length := by
        have := length_next b bs
        rw [h] at this
        simpa using Nat.lt_succ_of_le this
      let (cs, left) := split rest
      (c :: cs, left)
termination_by bs => bs.length
decreasing_by exact this

/-- The text as characters, when it is well-formed throughout. -/
def decode? (bs : List UInt8) : Option (List Char) :=
  match split bs with
  | (cs, []) => some cs
  | _ => none

/-- The text as characters, each ill-formed piece shown as U+FFFD. -/
def lossy : List UInt8 → List Char
  | [] => []
  | b :: bs =>
    match h : next b bs with
    | (c, rest) =>
      have : rest.length < (b :: bs).length := by
        have := length_next b bs
        rw [h] at this
        simpa using Nat.lt_succ_of_le this
      c.getD '\uFFFD' :: lossy rest
termination_by bs => bs.length
decreasing_by exact this

/-- The text as characters, each byte of an ill-formed piece shown as U+007F. -/
def marked : List UInt8 → List Char
  | [] => []
  | b :: bs =>
    match h : next b bs with
    | (c, rest) =>
      have : rest.length < (b :: bs).length := by
        have := length_next b bs
        rw [h] at this
        simpa using Nat.lt_succ_of_le this
      match c with
      | some c => c :: marked rest
      | none => List.replicate ((b :: bs).length - rest.length) '\x7F' ++ marked rest
termination_by bs => bs.length
decreasing_by all_goals exact this

/-- The bytes of a text. -/
def encode (s : String) : List UInt8 :=
  s.toUTF8.toList

end Capsule.Utf8
