import Capsule.Yaml.Scalar

/-!
# The tokens of YAML text

`Token.ofText?` turns a text into its tokens. Two things are not visible at the place where they
take effect, and both are handled by remembering positions.

*Blocks.* Blocks are told by indentation alone. The columns of the open ones are kept on a stack;
a token that opens a block pushes its column, and whenever the next token stands further left the
blocks that it leaves are closed.

*Keys.* That a scalar or a bracketed collection was the key of a pair shows only at the colon
behind it. So the place among the tokens where a key may begin is remembered, one for each level of
brackets, and the colon puts the key token there. A place is forgotten after a line break or more
than `keyReach` characters, and where the block could only go on with a key, forgetting it is an
error.
-/

namespace Capsule.Yaml

/-- A token of YAML text. -/
inductive Token
  | version (major minor : Nat)
  | tagDirective (handle head : List Char)
  | documentStart
  | documentEnd
  | blockSequenceStart
  | blockMappingStart
  | blockEnd
  | flowSequenceStart
  | flowSequenceEnd
  | flowMappingStart
  | flowMappingEnd
  | blockEntry
  | flowEntry
  | key
  | value
  | alias (name : List Char)
  | anchor (name : List Char)
  | tag (handle suffix : List Char)
  | scalar (style : Style) (text : List Char)
deriving DecidableEq, Repr

/-- A place among the tokens where a key may begin. -/
structure KeyPlace where
  /-- The number of tokens before it. -/
  position : Nat
  mark : Mark
  /-- Whether the block can only go on with a key here. -/
  required : Bool

/-- How many characters behind its start a text can still turn out to be a key. -/
def keyReach : Nat := 1024

/-- What has been read of a text: the tokens, the latest first, and where the reader stands. -/
structure Reader where
  mark : Mark := {}
  rest : List Char
  tokens : List Token := []
  /-- The column of the innermost block, -1 outside all. -/
  indent : Int := -1
  /-- The columns of the blocks around it, the innermost first. -/
  outer : List Int := []
  /-- Whether a key may begin at the next token. -/
  keyAllowed : Bool := true
  /-- The place of a possible key, of the innermost brackets and of those around them; outside all
  brackets there is the one of the block. -/
  places : List (Option KeyPlace) := [none]

namespace Reader

/-- How many brackets are open. -/
def depth (r : Reader) : Nat := r.places.length - 1

def inFlow (r : Reader) : Bool := 0 < r.depth

def emit (r : Reader) (t : Token) : Reader := { r with tokens := t :: r.tokens }

/-- Inserts a token behind the first `position` tokens. -/
def insertAt (r : Reader) (position : Nat) (t : Token) : Reader :=
  let later := r.tokens.take (r.tokens.length - position)
  { r with tokens := later ++ t :: r.tokens.drop (r.tokens.length - position) }

/-- Passes `n` characters, none of which is a line break. -/
def skip (r : Reader) (n : Nat) : Reader :=
  { r with mark := r.mark.advance n, rest := r.rest.drop n }

/-! ### Blocks -/

/-- Opens a block at a column, unless it is already open. -/
def openBlock (r : Reader) (column : Nat) (position : Nat) (t : Token) : Reader :=
  if r.inFlow then r
  else if r.indent < column then
    { r.insertAt position t with indent := column, outer := r.indent :: r.outer }
  else r

/-- Closes the blocks on the stack that stand to the right of a column. -/
def closeFrom (column : Int) (tokens : List Token) (indent : Int) :
    List Int → List Token × Int × List Int
  | [] => (tokens, indent, [])
  | i :: is =>
    if column < indent then closeFrom column (.blockEnd :: tokens) i is
    else (tokens, indent, i :: is)

/-- Closes the blocks that stand to the right of a column. -/
def closeBlocks (r : Reader) (column : Int) : Reader :=
  if r.inFlow then r
  else
    let (tokens, indent, outer) := closeFrom column r.tokens r.indent r.outer
    { r with tokens, indent, outer }

/-! ### Keys -/

/-- Whether a key can no longer have begun at a place. -/
def isStale (m : Mark) (p : KeyPlace) : Bool :=
  p.mark.line < m.line || p.mark.index + keyReach < m.index

/-- Forgets the places that are too far back. -/
def forgetStale (r : Reader) : Option Reader := do
  let places ← r.places.mapM fun
    | none => some none
    | some p =>
      if isStale r.mark p then (if p.required then none else some none) else some (some p)
  pure { r with places }

/-- Forgets the place of the innermost level. -/
def forgetPlace (r : Reader) : Option Reader :=
  match r.places with
  | some p :: ps => if p.required then none else some { r with places := none :: ps }
  | _ => some r

/-- Remembers that a key may begin here. -/
def rememberPlace (r : Reader) : Option Reader :=
  if r.keyAllowed then do
    let place : KeyPlace :=
      ⟨r.tokens.length, r.mark, !r.inFlow && r.indent == (r.mark.column : Int)⟩
    let r ← r.forgetPlace
    pure { r with places := some place :: r.places.drop 1 }
  else some r

/-! ### Blanks and comments -/

/-- Passes blanks, comments and line breaks up to the next token. Where a key may begin in a block,
tabs are no blanks. `inComment` says that the rest of the line is passed. -/
def toToken (inFlow keyAllowed inComment : Bool) (m : Mark) :
    List Char → Bool × Mark × List Char
  | [] => (keyAllowed, m, [])
  | '\r' :: '\n' :: cs => toToken inFlow (keyAllowed || !inFlow) false (m.newline 2) cs
  | c :: cs =>
    if isBreak c then toToken inFlow (keyAllowed || !inFlow) false (m.newline 1) cs
    else if inComment then toToken inFlow keyAllowed true m.next cs
    else if c = ' ' ∨ (c = '\t' ∧ (inFlow ∨ !keyAllowed)) then
      toToken inFlow keyAllowed false m.next cs
    else if c = '#' then toToken inFlow keyAllowed true m.next cs
    else (keyAllowed, m, c :: cs)

/-- Stands at the next token. A byte order mark may begin the text. -/
def advanceToToken (r : Reader) : Reader :=
  let (m, cs) := match r.mark.index, r.rest with
    | 0, '\uFEFF' :: cs => (r.mark.next, cs)
    | _, cs => (r.mark, cs)
  let (keyAllowed, mark, rest) := toToken r.inFlow r.keyAllowed false m cs
  { r with keyAllowed, mark, rest }

/-! ### Directives, anchors and tags -/

/-- Takes the characters of a name. -/
def takeName (cs : List Char) : List Char × List Char :=
  (cs.takeWhile isNameChar, cs.dropWhile isNameChar)

/-- The characters that an anchor's name may touch. -/
def endsAnchor (cs : List Char) : Bool :=
  endsWord cs ||
    match cs with
    | c :: _ => c == '?' || c == ':' || c == ',' || c == ']' || c == '}' || c == '%' || c == '@' ||
        c == '`'
    | [] => true

/-- The characters of a tag beside those of names. -/
def isTagChar (verbatim : Bool) (c : Char) : Bool :=
  isNameChar c || c == ';' || c == '/' || c == '?' || c == ':' || c == '@' || c == '&' ||
    c == '=' || c == '+' || c == '$' || c == '.' || c == '!' || c == '~' || c == '*' || c == '\'' || c == '(' ||
    c == ')' || (verbatim && (c == ',' || c == '[' || c == ']'))

/-- How many bytes the UTF-8 form of a character has whose first byte is given. -/
def encodedLength (b : Nat) : Nat :=
  if b < 0x80 then 1
  else if b / 0x20 = 6 then 2
  else if b / 0x10 = 14 then 3
  else if b / 8 = 30 then 4
  else 0

/-- The bytes written by their numbers at the start of a text, up to `n` of them. -/
def escapedBytes : Nat → List Char → Option (List Nat × List Char)
  | 0, cs => some ([], cs)
  | n + 1, '%' :: a :: b :: cs => do
    let byte ← Hex.number? [a, b]
    let (bytes, rest) ← escapedBytes n cs
    pure (byte :: bytes, rest)
  | _ + 1, _ => none

/-- A character written by the numbers of its bytes. -/
def escapedChar (cs : List Char) : Option (Char × List Char) := do
  let (first, _) ← escapedBytes 1 cs
  let n := encodedLength (first.headD 0)
  if n = 0 then none
  let (bytes, rest) ← escapedBytes n cs
  let continuation := bytes.drop 1
  if continuation.any fun b => b / 0x40 ≠ 2 then none
  let lead := bytes.headD 0 % (if n = 1 then 0x80 else Nat.pow 2 (7 - n))
  let code := continuation.foldl (fun acc b => acc * 0x40 + b % 0x40) lead
  if code.isValidChar then pure (Char.ofNat code, rest) else none

/-- The characters of a tag, as far as they go. The fuel is the length of the text. -/
def takeTag (verbatim : Bool) : Nat → List Char → Option (List Char × List Char)
  | 0, cs => some ([], cs)
  | fuel + 1, cs =>
    match cs with
    | [] => some ([], [])
    | c :: rest =>
      if c = '%' then do
        let (d, rest) ← escapedChar cs
        let (ds, rest) ← takeTag verbatim fuel rest
        pure (d :: ds, rest)
      else if isTagChar verbatim c then do
        let (ds, rest) ← takeTag verbatim fuel rest
        pure (c :: ds, rest)
      else some ([], cs)

/-- A tag: between angle brackets as it is, with a handle between two exclamation marks, or with the
handle of a single one. -/
def takeTagToken (inFlow : Bool) (cs : List Char) : Option (Token × List Char) := do
  let (t, rest) ← match cs with
    | '!' :: '<' :: cs => do
      let (suffix, rest) ← takeTag true cs.length cs
      if suffix.isEmpty then none
      match rest with
      | '>' :: rest => pure (Token.tag [] suffix, rest)
      | _ => none
    | '!' :: cs => do
      let (name, rest) := takeName cs
      match rest with
      | '!' :: rest => do
        let (suffix, rest) ← takeTag false rest.length rest
        if suffix.isEmpty then none
        pure (Token.tag ('!' :: name ++ ['!']) suffix, rest)
      | rest => do
        let (more, rest) ← takeTag false rest.length rest
        let suffix := name ++ more
        if suffix.isEmpty then pure (Token.tag [] ['!'], rest)
        else pure (Token.tag ['!'] suffix, rest)
    | _ => none
  if endsWord rest || (inFlow && rest.head? == some ',') then pure (t, rest) else none

/-- A number of at most nine digits. -/
def takeVersionPart (cs : List Char) : Option (Nat × List Char) :=
  let digits := cs.takeWhile Char.isDigit
  if digits.isEmpty || 9 < digits.length then none
  else some (digits.foldl (fun n c => 10 * n + (c.toNat - '0'.toNat)) 0, cs.dropWhile Char.isDigit)

/-- A directive, from behind its percent sign to the end of its line. -/
def takeDirective (cs : List Char) : Option (Token × List Char) := do
  let (name, rest) := takeName cs
  if name.isEmpty || !endsWord rest then none
  let rest := rest.dropWhile isBlank
  if name = ['Y', 'A', 'M', 'L'] then
    let (major, rest) ← takeVersionPart rest
    match rest with
    | '.' :: rest =>
      let (minor, rest) ← takeVersionPart rest
      pure (.version major minor, rest)
    | _ => none
  else if name = ['T', 'A', 'G'] then
    match rest with
    | '!' :: rest =>
      let (name, rest) := takeName rest
      let (handle, rest) ← match rest with
        | '!' :: rest => some ('!' :: name ++ ['!'], rest)
        | rest => if name.isEmpty then some (['!'], rest) else none
      if !(rest.head?.map isBlank).getD false then none
      let rest := rest.dropWhile isBlank
      let (head, rest) ← takeTag true rest.length rest
      if head.isEmpty || !endsWord rest then none
      pure (.tagDirective handle head, rest)
    | _ => none
  else none

/-! ### One token -/

/-- A token of `n` characters. -/
def emitHere (r : Reader) (n : Nat) (t : Token) : Reader := (r.skip n).emit t

/-- A token that outside brackets ends all blocks: a directive or a separator of documents. -/
def betweenDocuments (r : Reader) : Option Reader := do
  let r ← (r.closeBlocks (-1)).forgetPlace
  pure { r with keyAllowed := false }

/-- Moves to where a text continues whose first part, without line breaks, has been taken. -/
def continueAt (r : Reader) (rest : List Char) : Reader :=
  { r with mark := r.mark.advance (r.rest.length - rest.length), rest }

/-- A scalar whose text has been read. -/
def emitScalar (r : Reader) (style : Style) (e : ScalarEnd) : Reader :=
  { r with mark := e.mark, rest := e.rest }.emit (.scalar style e.text)

/-- An opening bracket. -/
def openFlow (r : Reader) (t : Token) : Option Reader := do
  let r ← r.rememberPlace
  pure ({ r with places := none :: r.places, keyAllowed := true }.emitHere 1 t)

/-- A closing bracket. -/
def closeFlow (r : Reader) (t : Token) : Option Reader := do
  let r ← r.forgetPlace
  let places := if r.inFlow then r.places.drop 1 else r.places
  pure ({ r with places, keyAllowed := false }.emitHere 1 t)

/-- The hyphen of a block's item. -/
def readBlockEntry (r : Reader) : Option Reader := do
  if !r.inFlow && !r.keyAllowed then none
  let r := r.openBlock r.mark.column r.tokens.length .blockSequenceStart
  let r ← r.forgetPlace
  pure ({ r with keyAllowed := true }.emitHere 1 .blockEntry)

/-- The question mark of a key. -/
def readKey (r : Reader) : Option Reader := do
  if !r.inFlow && !r.keyAllowed then none
  let r := r.openBlock r.mark.column r.tokens.length .blockMappingStart
  let r ← r.forgetPlace
  pure ({ r with keyAllowed := !r.inFlow }.emitHere 1 .key)

/-- The colon of a value, which also makes what stands at the remembered place a key. -/
def readValue (r : Reader) : Option Reader :=
  match r.places with
  | some p :: ps =>
    let r := { r with places := none :: ps, keyAllowed := false }
    let r := r.insertAt p.position .key
    let r := r.openBlock p.mark.column p.position .blockMappingStart
    some (r.emitHere 1 .value)
  | _ =>
    if r.inFlow then some ({ r with keyAllowed := false }.emitHere 1 .value)
    else if r.keyAllowed then
      let r := r.openBlock r.mark.column r.tokens.length .blockMappingStart
      some ({ r with keyAllowed := true }.emitHere 1 .value)
    else none

/-- An anchor or an alias. -/
def readAnchor (r : Reader) (cs : List Char) (make : List Char → Token) : Option Reader := do
  let r ← r.rememberPlace
  let (name, rest) := takeName cs
  if name.isEmpty || !endsAnchor rest then none
  pure ({ r with keyAllowed := false }.continueAt rest |>.emit (make name))

/-- A tag. -/
def readTag (r : Reader) : Option Reader := do
  let r ← r.rememberPlace
  let (t, rest) ← takeTagToken r.inFlow r.rest
  pure ({ r with keyAllowed := false }.continueAt rest |>.emit t)

/-- A quoted scalar. -/
def readQuoted (r : Reader) (style : Style) (cs : List Char) : Option Reader := do
  let r ← r.rememberPlace
  let e ← if style = .singleQuoted then singleQuoted r.mark.next [] {} cs
    else doubleQuoted r.mark.next [] {} cs
  pure ({ r with keyAllowed := false }.emitScalar style e)

/-- A plain scalar. A line break behind it makes room for a key. -/
def readPlain (r : Reader) : Option Reader := do
  let r ← r.rememberPlace
  let (e, broken) ← plain r.inFlow (r.indent + 1) true r.mark [] {} r.rest
  pure ({ r with keyAllowed := broken }.emitScalar .plain e)

/-- A block scalar. -/
def readBlock (r : Reader) (style : Style) (cs : List Char) : Option Reader := do
  let r ← r.forgetPlace
  let e ← block style r.indent r.mark.next cs
  pure ({ r with keyAllowed := true }.emitScalar style e)

/-- The characters that begin no plain scalar. -/
def isIndicator (c : Char) : Bool :=
  c == '-' || c == '?' || c == ':' || c == ',' || c == '[' || c == ']' || c == '{' || c == '}' ||
    c == '#' || c == '&' || c == '*' || c == '!' || c == '|' || c == '>' || c == '\'' || c == '"' ||
    c == '%' || c == '@' || c == '`'

/-- Whether a plain scalar begins here. -/
def beginsPlain (inFlow : Bool) (c : Char) (cs : List Char) : Bool :=
  !(isIndicator c || isBlank c) ||
    (c == '-' && !(cs.head?.map isBlank).getD false) ||
    (!inFlow && (c == '?' || c == ':') && !endsWord cs)

/-- The end of the text. -/
def finish (r : Reader) : Option Reader := do
  let r := if r.mark.column = 0 then r else { r with mark := r.mark.newline 0 }
  let r ← (r.closeBlocks (-1)).forgetPlace
  pure { r with keyAllowed := false }

/-- Reads the token at which the reader stands. -/
def readToken (r : Reader) (c : Char) (cs : List Char) : Option Reader :=
  if r.mark.column = 0 ∧ c = '%' then do
    let r ← r.betweenDocuments
    let (t, rest) ← takeDirective cs
    let (m, rest) ← lineRest (r.mark.advance (r.rest.length - rest.length)) rest
    let (_, m, rest) := (takeBreak m rest).getD ([], m, rest)
    pure ({ r with mark := m, rest }.emit t)
  else if atSeparator r.mark (c :: cs) then do
    let r ← r.betweenDocuments
    pure (r.emitHere 3 (if c = '-' then .documentStart else .documentEnd))
  else if c = '[' then r.openFlow .flowSequenceStart
  else if c = '{' then r.openFlow .flowMappingStart
  else if c = ']' then r.closeFlow .flowSequenceEnd
  else if c = '}' then r.closeFlow .flowMappingEnd
  else if c = ',' then do
    let r ← r.forgetPlace
    pure ({ r with keyAllowed := true }.emitHere 1 .flowEntry)
  else if c = '-' ∧ endsWord cs then r.readBlockEntry
  else if c = '?' ∧ (r.inFlow ∨ endsWord cs) then r.readKey
  else if c = ':' ∧ (r.inFlow ∨ endsWord cs) then r.readValue
  else if c = '*' then r.readAnchor cs .alias
  else if c = '&' then r.readAnchor cs .anchor
  else if c = '!' then r.readTag
  else if c = '|' ∧ !r.inFlow then r.readBlock .literal cs
  else if c = '>' ∧ !r.inFlow then r.readBlock .folded cs
  else if c = '\'' then r.readQuoted .singleQuoted cs
  else if c = '"' then r.readQuoted .doubleQuoted cs
  else if beginsPlain r.inFlow c cs then r.readPlain
  else none

/-- Reads to the end of the text. Each token takes at least one character, so fuel for one more than
the length of the text is enough. -/
def readAll : Nat → Reader → Option Reader
  | 0, _ => none
  | fuel + 1, r => do
    let r ← r.advanceToToken.forgetStale
    let r := r.closeBlocks r.mark.column
    match r.rest with
    | [] => r.finish
    | c :: cs => readAll fuel (← r.readToken c cs)

end Reader

/-- The tokens of a text. -/
def Token.ofText? (text : List Char) : Option (List Token) := do
  if text.any fun c => !isAllowed c then none
  let r ← Reader.readAll (text.length + 1) { rest := text }
  pure r.tokens.reverse

end Capsule.Yaml
