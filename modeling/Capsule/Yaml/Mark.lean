/-!
# Positions and character classes of YAML text

A reader of YAML has to know where it stands: the column decides the nesting of blocks, and the
line and the distance from its start decide whether a text can still be the key of a pair.
-/

namespace Capsule.Yaml

/-- A position: the number of characters before it, the number of lines before it, and the number
of characters before it on its line. -/
structure Mark where
  index : Nat := 0
  line : Nat := 0
  column : Nat := 0
deriving DecidableEq, Repr, Inhabited

namespace Mark

/-- Behind a character that is no line break. -/
def next (m : Mark) : Mark := { m with index := m.index + 1, column := m.column + 1 }

/-- Behind `n` characters none of which is a line break. -/
def advance (m : Mark) (n : Nat) : Mark := { m with index := m.index + n, column := m.column + n }

/-- Behind a line break of `n` characters. -/
def newline (m : Mark) (n : Nat) : Mark := ⟨m.index + n, m.line + 1, 0⟩

end Mark

def isBlank (c : Char) : Bool := c == ' ' || c == '\t'

def isBreak (c : Char) : Bool :=
  c == '\n' || c == '\r' || c == '\u0085' || c == '\u2028' || c == '\u2029'

/-- The text ends here, or a blank or a line break follows. -/
def endsWord : List Char → Bool
  | [] => true
  | c :: _ => isBlank c || isBreak c

/-- The text or the line ends here. -/
def endsLine : List Char → Bool
  | [] => true
  | c :: _ => isBreak c

/-- What a line break contributes to a scalar: the two separators of lines and paragraphs stand for
themselves, and every other break is one line feed. -/
def breakText (c : Char) : List Char :=
  if c == '\u2028' || c == '\u2029' then [c] else ['\n']

/-- The characters of names: of anchors, tag handles and directives. -/
def isNameChar (c : Char) : Bool := c.isAlphanum || c == '_' || c == '-'

/-- The characters that may occur in a document at all. -/
def isAllowed (c : Char) : Bool :=
  let n := c.toNat
  n == 0x09 || n == 0x0A || n == 0x0D || (0x20 ≤ n && n ≤ 0x7E) || n == 0x85 ||
    (0xA0 ≤ n && n ≤ 0xD7FF) || (0xE000 ≤ n && n ≤ 0xFFFD) || 0x10000 ≤ n

/-- A line that begins with three hyphens or three dots standing alone separates documents. -/
def atSeparator (m : Mark) (cs : List Char) : Bool :=
  m.column == 0 &&
    match cs with
    | '-' :: '-' :: '-' :: rest => endsWord rest
    | '.' :: '.' :: '.' :: rest => endsWord rest
    | _ => false

end Capsule.Yaml
