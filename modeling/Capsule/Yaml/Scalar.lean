import Capsule.Yaml.Mark
import Capsule.Text.Hex

/-!
# The text of YAML scalars

A scalar's text is not what stands in the document: line breaks are folded, escapes are resolved,
and block scalars lose their indentation. Each of the three notations (quoted, plain, block) is
read by one function, which takes the position behind the opening indicator and gives the text,
the position behind the scalar, and what follows there.

Folding is the same in quoted and plain scalars. `Gap` holds the blanks and breaks that have been
passed since the last character of the text: as long as no line break is among them the blanks
stand for themselves; from the first break on, blanks vanish, one break is a blank, and of several
breaks all but the first remain.
-/

namespace Capsule.Yaml

/-- The notation in which a scalar is written. -/
inductive Style
  | plain
  | singleQuoted
  | doubleQuoted
  | literal
  | folded
deriving DecidableEq, Repr

/-- The blanks and breaks since the last character of a scalar's text. -/
structure Gap where
  /-- The blanks before the first break. -/
  blanks : List Char := []
  /-- Whether a break has been passed, or escaped. -/
  broken : Bool := false
  /-- The text of the first break. -/
  first : List Char := []
  /-- The texts of the other breaks. -/
  others : List Char := []

namespace Gap

def addBlank (g : Gap) (c : Char) : Gap :=
  if g.broken then g else { g with blanks := g.blanks ++ [c] }

def addBreak (g : Gap) (c : Char) : Gap :=
  if g.broken then { g with others := g.others ++ breakText c }
  else { blanks := [], broken := true, first := breakText c, others := [] }

/-- What a gap contributes to the text. -/
def text (g : Gap) : List Char :=
  if g.broken then
    if g.first = ['\n'] then (if g.others.isEmpty then [' '] else g.others)
    else g.first ++ g.others
  else g.blanks

end Gap

/-- A scalar's text, the position behind it, and what follows there. -/
structure ScalarEnd where
  text : List Char
  mark : Mark
  rest : List Char

/-! ### Quoted scalars -/

/-- The character of an escape by letter. -/
def escapeLetter? : Char → Option Char
  | '0' => some '\x00'
  | 'a' => some '\x07'
  | 'b' => some '\x08'
  | 't' => some '\t'
  | '\t' => some '\t'
  | 'n' => some '\n'
  | 'v' => some '\x0b'
  | 'f' => some '\x0c'
  | 'r' => some '\r'
  | 'e' => some '\x1b'
  | ' ' => some ' '
  | '"' => some '"'
  | '/' => some '/'
  | '\\' => some '\\'
  | 'N' => some '\u0085'
  | '_' => some '\u00a0'
  | 'L' => some '\u2028'
  | 'P' => some '\u2029'
  | _ => none

/-- The character whose number the hexadecimal digits give. -/
def escapeNumber? (digits : List Char) : Option Char := do
  let n ← Hex.number? digits
  if n.isValidChar then pure (Char.ofNat n) else none

/-- A scalar between double quotes, from behind the opening one. `acc` holds the text so far in
reverse. -/
def doubleQuoted (m : Mark) (acc : List Char) (gap : Gap) : List Char → Option ScalarEnd
  | [] => none
  | '\r' :: '\n' :: cs => doubleQuoted (m.newline 2) acc (gap.addBreak '\n') cs
  | '\\' :: '\r' :: '\n' :: cs =>
    doubleQuoted (m.next.newline 2) (gap.text.reverse ++ acc) ⟨[], true, [], []⟩ cs
  | '\\' :: 'x' :: a :: b :: cs =>
    match escapeNumber? [a, b] with
    | none => none
    | some c => doubleQuoted (m.advance 4) (c :: (gap.text.reverse ++ acc)) {} cs
  | '\\' :: 'u' :: a :: b :: c :: d :: cs =>
    match escapeNumber? [a, b, c, d] with
    | none => none
    | some c => doubleQuoted (m.advance 6) (c :: (gap.text.reverse ++ acc)) {} cs
  | '\\' :: 'U' :: a :: b :: c :: d :: e :: f :: g :: h :: cs =>
    match escapeNumber? [a, b, c, d, e, f, g, h] with
    | none => none
    | some c => doubleQuoted (m.advance 10) (c :: (gap.text.reverse ++ acc)) {} cs
  | '\\' :: c :: cs =>
    if isBreak c then
      doubleQuoted (m.next.newline 1) (gap.text.reverse ++ acc) ⟨[], true, [], []⟩ cs
    else
      match escapeLetter? c with
      | none => none
      | some c => doubleQuoted (m.advance 2) (c :: (gap.text.reverse ++ acc)) {} cs
  | c :: cs =>
    if isBlank c then doubleQuoted m.next acc (gap.addBlank c) cs
    else if isBreak c then doubleQuoted (m.newline 1) acc (gap.addBreak c) cs
    else if atSeparator m (c :: cs) then none
    else if c = '"' then some ⟨(gap.text.reverse ++ acc).reverse, m.next, cs⟩
    else doubleQuoted m.next (c :: (gap.text.reverse ++ acc)) {} cs

/-- A scalar between single quotes, from behind the opening one. A quote inside is written
twice. -/
def singleQuoted (m : Mark) (acc : List Char) (gap : Gap) : List Char → Option ScalarEnd
  | [] => none
  | '\r' :: '\n' :: cs => singleQuoted (m.newline 2) acc (gap.addBreak '\n') cs
  | '\'' :: '\'' :: cs => singleQuoted (m.advance 2) ('\'' :: (gap.text.reverse ++ acc)) {} cs
  | c :: cs =>
    if isBlank c then singleQuoted m.next acc (gap.addBlank c) cs
    else if isBreak c then singleQuoted (m.newline 1) acc (gap.addBreak c) cs
    else if atSeparator m (c :: cs) then none
    else if c = '\'' then some ⟨(gap.text.reverse ++ acc).reverse, m.next, cs⟩
    else singleQuoted m.next (c :: (gap.text.reverse ++ acc)) {} cs

/-! ### Plain scalars -/

/-- A character that ends a plain scalar, given what follows it. -/
def endsPlain (inFlow : Bool) (c : Char) (cs : List Char) : Bool :=
  (c == ':' && endsWord cs) ||
    (inFlow && (c == ',' || c == '[' || c == ']' || c == '{' || c == '}'))

/-- Inside brackets a colon must not touch an indicator of the brackets. -/
def isStrayColon (inFlow : Bool) (c : Char) (cs : List Char) : Bool :=
  inFlow && c == ':' &&
    match cs with
    | d :: _ => d == ',' || d == '?' || d == '[' || d == ']' || d == '{' || d == '}'
    | [] => false

/-- A plain scalar. `start` says that the next character follows a gap or begins the scalar, where
a comment or a document separator would end it; `indent` is the column that continuation lines of a
block must reach. Also gives whether the scalar was followed by a line break. -/
def plain (inFlow : Bool) (indent : Int) (start : Bool) (m : Mark) (acc : List Char) (gap : Gap) :
    List Char → Option (ScalarEnd × Bool)
  | [] => some (⟨acc.reverse, m, []⟩, gap.broken)
  | '\r' :: '\n' :: cs => plain inFlow indent true (m.newline 2) acc (gap.addBreak '\n') cs
  | c :: cs =>
    if isBlank c then
      if gap.broken && (m.column : Int) < indent && c == '\t' then none
      else plain inFlow indent true m.next acc (gap.addBlank c) cs
    else if isBreak c then plain inFlow indent true (m.newline 1) acc (gap.addBreak c) cs
    else if start && !acc.isEmpty && !inFlow && (m.column : Int) < indent then
      some (⟨acc.reverse, m, c :: cs⟩, gap.broken)
    else if start && (atSeparator m (c :: cs) || c == '#') then
      some (⟨acc.reverse, m, c :: cs⟩, gap.broken)
    else if isStrayColon inFlow c cs then none
    else if endsPlain inFlow c cs then some (⟨acc.reverse, m, c :: cs⟩, gap.broken)
    else plain inFlow indent false m.next (c :: (gap.text.reverse ++ acc)) {} cs

/-! ### Block scalars -/

/-- What to do with the line breaks at the end of a block scalar. -/
inductive Chomping
  | strip
  | clip
  | keep
deriving DecidableEq

/-- The indicators behind the opening one: chomping and indentation, in either order. -/
def blockHeader (m : Mark) (cs : List Char) : Option (Chomping × Nat × Mark × List Char) :=
  let chomping? (c : Char) : Option Chomping :=
    if c = '+' then some .keep else if c = '-' then some .strip else none
  let increment? (c : Char) : Option Nat :=
    if '0' ≤ c ∧ c ≤ '9' then some (c.toNat - '0'.toNat) else none
  match cs with
  | [] => some (.clip, 0, m, [])
  | c :: cs' =>
    match chomping? c with
    | some ch =>
      match cs' with
      | [] => some (ch, 0, m.next, [])
      | d :: cs'' =>
        match increment? d with
        | some 0 => none
        | some n => some (ch, n, m.next.next, cs'')
        | none => some (ch, 0, m.next, cs')
    | none =>
      match increment? c with
      | some 0 => none
      | some n =>
        match cs' with
        | [] => some (.clip, n, m.next, [])
        | d :: cs'' =>
          match chomping? d with
          | some ch => some (ch, n, m.next.next, cs'')
          | none => some (.clip, n, m.next, cs')
      | none => some (.clip, 0, m, cs)

/-- Blanks and a comment up to the end of the line. -/
def lineRest (m : Mark) (cs : List Char) : Option (Mark × List Char) :=
  let blanks := cs.takeWhile isBlank
  let m := m.advance blanks.length
  let cs := cs.dropWhile isBlank
  let comment := if cs.head? = some '#' then cs.takeWhile fun c => !isBreak c else []
  let m := m.advance comment.length
  let cs := cs.drop comment.length
  if endsLine cs then some (m, cs) else none

/-- The line break that begins here, if one does: its text, and the position behind it. -/
def takeBreak (m : Mark) : List Char → Option (List Char × Mark × List Char)
  | '\r' :: '\n' :: cs => some (['\n'], m.newline 2, cs)
  | c :: cs => if isBreak c then some (breakText c, m.newline 1, cs) else none
  | [] => none

/-- What precedes a line of a block scalar that holds text. -/
structure Leading where
  breaks : List Char
  widest : Nat
  mark : Mark
  rest : List Char

/-- Passes indentation and empty lines. With a known indentation no more blanks than that are
taken; with `indent = 0` all are, and the widest line is noted. -/
def leadingLines (indent : Nat) (breaks : List Char) (widest : Nat) (m : Mark) :
    List Char → Option Leading
  | '\r' :: '\n' :: cs =>
    leadingLines indent (breaks ++ ['\n']) (max widest m.column) (m.newline 2) cs
  | c :: cs =>
    if c = ' ' ∧ (indent = 0 ∨ m.column < indent) then
      leadingLines indent breaks widest m.next cs
    else if c = '\t' ∧ (indent = 0 ∨ m.column < indent) then none
    else if isBreak c then
      leadingLines indent (breaks ++ breakText c) (max widest m.column) (m.newline 1) cs
    else some ⟨breaks, max widest m.column, m, c :: cs⟩
  | [] => some ⟨breaks, max widest m.column, m, []⟩

/-- The lines of a block scalar that hold text. `acc` holds the text so far; `first` is the break
behind its last line, `others` the empty lines since, and `indented` says that its last line begins
with a blank. -/
def blockLines (style : Style) (indent : Nat) :
    Nat → List Char → List Char → List Char → Bool → Mark → List Char →
      Option (List Char × List Char × List Char × Mark × List Char)
  | 0, acc, first, others, _, m, cs => some (acc, first, others, m, cs)
  | fuel + 1, acc, first, others, indented, m, cs =>
    if m.column = indent ∧ cs ≠ [] then
      let blank := (cs.head?.map isBlank).getD false
      let joint :=
        if style = .folded ∧ first = ['\n'] ∧ !indented ∧ !blank then
          if others.isEmpty then [' '] else others
        else first ++ others
      let line := cs.takeWhile fun c => !isBreak c
      let m := m.advance line.length
      let cs := cs.dropWhile fun c => !isBreak c
      let (first, m, cs) := (takeBreak m cs).getD ([], m, cs)
      match leadingLines indent [] 0 m cs with
      | none => none
      | some l =>
        blockLines style indent fuel (acc ++ joint ++ line) first l.breaks blank l.mark l.rest
    else some (acc, first, others, m, cs)

/-- A block scalar, from behind its opening indicator. `parent` is the indentation of the block
that it stands in. -/
def block (style : Style) (parent : Int) (m : Mark) (cs : List Char) : Option ScalarEnd := do
  let (chomping, increment, m, cs) ← blockHeader m cs
  let (m, cs) ← lineRest m cs
  let (_, m, cs) := (takeBreak m cs).getD ([], m, cs)
  let given := if increment = 0 then 0 else (max parent 0).toNat + increment
  let l ← leadingLines given [] 0 m cs
  let indent := if given = 0 then max (max l.widest (parent + 1).toNat) 1 else given
  let (acc, first, others, m, cs) ←
    blockLines style indent (cs.length + 1) [] [] l.breaks false l.mark l.rest
  let tail := match chomping with
    | .strip => []
    | .clip => first
    | .keep => first ++ others
  pure ⟨acc ++ tail, m, cs⟩

end Capsule.Yaml
