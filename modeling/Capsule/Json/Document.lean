import Capsule.Json.Numeral
import Capsule.Text.Hex

/-!
# JSON documents as far as they can be read

A text is decoded in one pass straight into the type that is wanted, and whichever problem comes
first in the text is the one reported, be it a fault of the grammar or a value of the wrong type.
To keep reading and decoding apart and still get that order, reading never fails: it gives the tree
of everything before the first fault of the grammar, and leaves the fault standing at its place.
A decoder that walks the tree in text order then meets the problems in text order.

Some faults count only where the value is wanted, not where it is skipped as the value of an
unknown member: a number too large for a double, a surrogate without its partner, and nesting past
the limit. The first two are kept inside the leaf, `Doc.number` and `Doc.string`, and reading goes
on behind them. The third is left to whoever walks the tree. Where a fault ends the text for both,
`Doc.broken` holds what each of the two would report.

## Main definitions

* `Doc`: a document up to its first fault
* `Doc.read`: the document at the start of a text, and what follows it
-/

namespace Capsule

/-- What stands before the colon of an object's member. -/
inductive Key
  | text (reading : Except Fault String)
  /-- Something that is no string; it is the member's value, and the object ends there. -/
  | other

/-- How the list of items or members ends. -/
inductive Ending
  | closed
  /-- Neither a comma nor the closing bracket follows. -/
  | missing (fault : Fault)
  /-- A comma follows, and then nothing that could be an item. -/
  | afterComma (fault : Fault)

/-- A document up to its first fault. -/
inductive Doc where
  | null
  | bool (value : Bool)
  | number (reading : Except Fault Number)
  | string (reading : Except Fault String)
  | array (items : List Doc) (ending : Ending)
  | object (members : List (Key × Doc)) (ending : Ending)
  /-- The text is not JSON from here on: what a reader and what a skipper of the value report. -/
  | broken (reading skipping : Fault)

instance : Inhabited Doc := ⟨.null⟩

namespace Doc

/-- The blanks of the grammar. -/
def isBlank (c : Char) : Bool := c == ' ' || c == '\n' || c == '\t' || c == '\r'

def skipBlanks (cs : List Char) : List Char := cs.dropWhile isBlank

/-! ### Strings -/

/-- A piece of a string: a character, or a code unit written by its number. -/
inductive Piece
  | char (c : Char)
  | codeUnit (n : Nat)

/-- The character of an escape by letter. -/
def escaped? : Char → Option Char
  | '"' => some '"'
  | '\\' => some '\\'
  | '/' => some '/'
  | 'b' => some '\x08'
  | 'f' => some '\x0c'
  | 'n' => some '\n'
  | 'r' => some '\r'
  | 't' => some '\t'
  | _ => none

/-- Fewer than four bytes are too few for a code unit, whatever they are. -/
def shortUnit (cs : List Char) : Fault :=
  if cs.foldl (fun size c => size + c.utf8Size) 0 < 4 then .unfinished .inString else .malformed

/-- The pieces of a string up to its closing quotation mark, and what follows that. -/
def pieces : List Char → List Piece × Except Fault (List Char)
  | [] => ([], .error (.unfinished .inString))
  | '"' :: cs => ([], .ok cs)
  | '\\' :: 'u' :: a :: b :: c :: d :: cs =>
    match Hex.number? [a, b, c, d] with
    | none => ([], .error .malformed)
    | some n =>
      let (ps, rest) := pieces cs
      (.codeUnit n :: ps, rest)
  | '\\' :: 'u' :: cs => ([], .error (shortUnit cs))
  | '\\' :: c :: cs =>
    match escaped? c with
    | none => ([], .error .malformed)
    | some c =>
      let (ps, rest) := pieces cs
      (.char c :: ps, rest)
  | ['\\'] => ([], .error (.unfinished .inString))
  | c :: cs =>
    if c.toNat < 0x20 then ([], .error .malformed)
    else
      let (ps, rest) := pieces cs
      (.char c :: ps, rest)

def isHigh (n : Nat) : Bool := 0xD800 ≤ n && n < 0xDC00

def isLow (n : Nat) : Bool := 0xDC00 ≤ n && n < 0xE000

/-- The characters of the pieces, each pair of surrogates making one. `cut` tells that the text
broke off behind the pieces, so that a partner of the last one may be missing. -/
def assemble (cut : Bool) : List Piece → Option (List Char)
  | [] => some []
  | .char c :: ps => (assemble cut ps).map (c :: ·)
  | .codeUnit n :: ps =>
    if isLow n then none
    else if isHigh n then
      match ps with
      | .codeUnit m :: ps' =>
        if isLow m then
          (assemble cut ps').map (Char.ofNat (0x10000 + (n - 0xD800) * 0x400 + (m - 0xDC00)) :: ·)
        else none
      | [] => if cut then some [] else none
      | .char _ :: _ => none
    else (assemble cut ps).map (Char.ofNat n :: ·)

/-- What is read of a string behind its opening quotation mark, and what follows the string; where
nothing follows, the text broke off inside it with the given fault. -/
def stringRest (cs : List Char) : Except Fault String × Except Fault (List Char) :=
  match pieces cs with
  | (ps, .ok rest) =>
    match assemble false ps with
    | some s => (.ok (String.ofList s), .ok rest)
    | none => (.error .malformed, .ok rest)
  | (ps, .error f) => (.error (if (assemble true ps).isSome then f else .malformed), .error f)

/-! ### Values -/

/-- The rest of one of the three words. -/
def word (expected : List Char) (value : Doc) : List Char → Doc × Option (List Char) :=
  go expected
where
  go : List Char → List Char → Doc × Option (List Char)
    | [], cs => (value, some cs)
    | _ :: _, [] => (.broken (.unfinished .inToken) (.unfinished .inToken), none)
    | e :: es, c :: cs => if c = e then go es cs else (.broken .malformed .malformed, none)

/-- A number; a skipper does not tell a number that breaks off from one that is malformed. -/
def numberAt (cs : List Char) : Doc × Option (List Char) :=
  match Numeral.scan cs with
  | .error f => (.broken f .malformed, none)
  | .ok (n, rest) =>
    (.number (match n.value? with
      | some v => .ok v
      | none => .error .malformed), some rest)

/-- What a text that ends, or goes on wrongly, is short of. -/
def faultAt : List Char → Fault
  | [] => .unfinished .between
  | _ :: _ => .malformed

mutual

/-- The value at the start of a text, and what follows it unless it is broken. The fuel bounds the
number of nested calls; two for each character and two more are enough. -/
def value (fuel : Nat) (cs : List Char) : Doc × Option (List Char) :=
  match fuel with
  | 0 => (.broken .malformed .malformed, none)
  | fuel + 1 =>
    match skipBlanks cs with
    | [] => (.broken (.unfinished .between) (.unfinished .between), none)
    | 'n' :: cs => word ['u', 'l', 'l'] .null cs
    | 't' :: cs => word ['r', 'u', 'e'] (.bool true) cs
    | 'f' :: cs => word ['a', 'l', 's', 'e'] (.bool false) cs
    | '"' :: cs =>
      match stringRest cs with
      | (reading, .ok rest) => (.string reading, some rest)
      | (.error r, .error s) => (.broken r s, none)
      | (.ok _, .error s) => (.broken s s, none)
    | '[' :: cs =>
      let (items, ending, rest) :=
        match skipBlanks cs with
        | ']' :: rest => ([], .closed, some rest)
        | [] => ([], .missing (.unfinished .between), none)
        | cs => items fuel cs
      (.array items ending, rest)
    | '{' :: cs =>
      let (members, ending, rest) :=
        match skipBlanks cs with
        | '}' :: rest => ([], .closed, some rest)
        | [] => ([], .missing (.unfinished .between), none)
        | cs => members fuel cs
      (.object members ending, rest)
    | c :: cs =>
      if c = '-' ∨ Numeral.isDigit c then numberAt (c :: cs)
      else (.broken .malformed .malformed, none)

/-- The items from one that begins here to the closing bracket. -/
def items (fuel : Nat) (cs : List Char) : List Doc × Ending × Option (List Char) :=
  match fuel with
  | 0 => ([], .missing .malformed, none)
  | fuel + 1 =>
    match value fuel cs with
    | (d, none) => ([d], .closed, none)
    | (d, some rest) =>
      match skipBlanks rest with
      | ']' :: rest => ([d], .closed, some rest)
      | ',' :: rest =>
        match skipBlanks rest with
        | [] => ([d], .afterComma (.unfinished .between), none)
        | ']' :: _ => ([d], .afterComma .malformed, none)
        | rest =>
          let (ds, ending, rest) := items fuel rest
          (d :: ds, ending, rest)
      | rest => ([d], .missing (faultAt rest), none)

/-- The members from one that begins here to the closing brace. -/
def members (fuel : Nat) (cs : List Char) : List (Key × Doc) × Ending × Option (List Char) :=
  match fuel with
  | 0 => ([], .missing .malformed, none)
  | fuel + 1 =>
    match cs with
    | '"' :: cs =>
      match stringRest cs with
      | (key, .error f) => ([(.text key, .broken f f)], .closed, none)
      | (key, .ok rest) =>
        match skipBlanks rest with
        | ':' :: rest =>
          match value fuel rest with
          | (d, none) => ([(.text key, d)], .closed, none)
          | (d, some rest) =>
            match skipBlanks rest with
            | '}' :: rest => ([(.text key, d)], .closed, some rest)
            | ',' :: rest =>
              match skipBlanks rest with
              | [] => ([(.text key, d)], .afterComma (.unfinished .between), none)
              | '}' :: _ => ([(.text key, d)], .afterComma .malformed, none)
              | rest =>
                let (ms, ending, rest) := members fuel rest
                ((.text key, d) :: ms, ending, rest)
            | rest => ([(.text key, d)], .missing (faultAt rest), none)
        | rest => ([(.text key, .broken (faultAt rest) (faultAt rest))], .closed, none)
    | cs => ([(.other, (value fuel cs).1)], .closed, none)

end

/-- The document that a text consists of, and the fault of what follows it, if anything does. -/
def read (text : List Char) : Doc × Option Fault :=
  match value (2 * text.length + 2) text with
  | (d, none) => (d, none)
  | (d, some rest) => (d, if (skipBlanks rest).isEmpty then none else some .malformed)

end Doc

end Capsule
