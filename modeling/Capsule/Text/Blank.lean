/-!
# Blanks

White space in the sense of Unicode: the characters with the property `White_Space`. A text is
trimmed at both ends, or at one character's occurrences there, and cut into words at blanks.
-/

namespace Capsule.Blank

/-- The characters with the property `White_Space`. -/
def isBlank (c : Char) : Bool :=
  let n := c.toNat
  (0x09 ≤ n && n ≤ 0x0D) || n == 0x20 || n == 0x85 || n == 0xA0 || n == 0x1680 ||
  (0x2000 ≤ n && n ≤ 0x200A) || n == 0x2028 || n == 0x2029 || n == 0x202F || n == 0x205F ||
  n == 0x3000

/-- Without the characters of a class at both ends. -/
def trimBy (isOuter : Char → Bool) (cs : List Char) : List Char :=
  ((cs.dropWhile isOuter).reverse.dropWhile isOuter).reverse

/-- Without the blanks at both ends. -/
def trim (cs : List Char) : List Char := trimBy isBlank cs

/-- The first word, empty where there is none. -/
def firstWord (cs : List Char) : List Char :=
  (cs.dropWhile isBlank).takeWhile fun c => !isBlank c

end Capsule.Blank
