import Capsule.Pull

/-!
# Command lines

A command line is a list of words. What may stand on it is said by a `Form`: options, which begin
with two hyphens and some of which take a value, and operands, which stand for themselves; or, in
the place of operands, the name of a command, whose own form goes for the words behind it.

Words are read one by one. A value belongs to an option either behind an equals sign or as the
next word, and what has been given is looked at when the next option or operand begins, or at the
end. So of two faults it is the first that counts, except that an option nobody knows is noticed
at once. Two hyphens alone make operands of all words behind them.

## Main definitions

* `Form`: what may be given
* `Refusal`: why a command line is not carried out
* `Given`: what has been given
* `Form.read`: the words of a form, up to a command if there is one
-/

namespace Capsule

/-- Why a command line is not carried out. Two of the reasons are wishes. -/
inductive Refusal
  | unknownArgument
  | unknownCommand
  /-- Options were given, but no command. -/
  | noCommand
  /-- Nothing at all was given. -/
  | nothing
  /-- An operand is missing. -/
  | noOperand
  /-- An option that needs a value has none, or a path is empty. -/
  | noValue
  /-- A value cannot be read as what it is to be. -/
  | badValue
  /-- An option that takes no value has one. -/
  | needlessValue
  /-- An option was given twice. -/
  | repeated
  | helpWanted
  | versionWanted
deriving DecidableEq, Repr, Inhabited

/-- What a value is read as. -/
inductive ValueKind
  | text
  | path
  /-- A natural number below `2 ^ 64`. -/
  | word
  | imageKind
  | verifyMode
deriving DecidableEq, Repr, Inhabited

/-- A natural number below `2 ^ 64`, in decimal digits that may follow a plus sign. -/
def readWord? (text : String) : Option Nat :=
  let digits := match text.toList with
    | '+' :: cs => cs
    | cs => cs
  if digits.isEmpty || !digits.all Char.isDigit then none
  else
    let n := Numeral.decimal digits
    if n < Nat.pow 2 64 then some n else none

/-- Whether a value can be read. -/
def ValueKind.check (kind : ValueKind) (text : String) : Except Refusal Unit :=
  match kind with
  | .text => .ok ()
  | .path => if text.isEmpty then .error .noValue else .ok ()
  | .word => if (readWord? text).isSome then .ok () else .error .badValue
  | .imageKind => if (ImageKind.ofName text).toBool then .ok () else .error .badValue
  | .verifyMode => if (VerifyMode.ofName text).toBool then .ok () else .error .badValue

/-- An option: its name without the hyphens, and what its value is read as if it takes one. -/
structure Choice where
  name : String
  value : Option ValueKind := none
deriving DecidableEq, Repr, Inhabited

/-- What may be given on a command line, or on its part behind a command. -/
structure Form where
  choices : List Choice := []
  operands : List ValueKind := []
  /-- The commands that may stand in the place of operands. -/
  commands : List String := []
  /-- The version can be asked for. -/
  hasVersion : Bool := false
deriving DecidableEq, Repr, Inhabited

/-- What has been given: options with their values, and operands. A flag has an empty value. -/
structure Given where
  options : List (String × String) := []
  operands : List String := []
deriving DecidableEq, Repr, Inhabited

namespace Given

/-- The value of an option. -/
def value? (g : Given) (name : String) : Option String := g.options.lookup name

/-- Whether an option was given. -/
def has (g : Given) (name : String) : Bool := (g.value? name).isSome

/-- An operand by its position. -/
def operand (g : Given) (position : Nat) : String := g.operands.getD position ""

/-- One more option. -/
def give (g : Given) (o : Choice) (value : String) : Except Refusal Given :=
  if g.has o.name then .error .repeated
  else do
    match o.value with
    | none => pure ()
    | some kind => kind.check value
    pure { g with options := g.options ++ [(o.name, value)] }

end Given

/-- What has been read and not been looked at. -/
inductive Pending
  | nothing
  /-- An option, whose value is to come. -/
  | choice (o : Choice)
  | valued (o : Choice) (value : String)
  | operand (kind : ValueKind) (value : String)
deriving DecidableEq, Repr, Inhabited

/-- A reader of words. -/
structure Reader where
  given : Given := {}
  pending : Pending := .nothing
  /-- Two hyphens alone have been read. -/
  operandsOnly : Bool := false
deriving DecidableEq, Repr, Inhabited

namespace Reader

/-- The next word is the value of an option, unless it is an option. -/
def awaitsValue (r : Reader) : Bool :=
  match r.pending with
  | .choice _ => true
  | _ => false

/-- How many operands have been read. -/
def operandCount (r : Reader) : Nat :=
  r.given.operands.length +
    match r.pending with
    | .operand _ _ => 1
    | _ => 0

/-- Looks at what has not been looked at. -/
def settle (r : Reader) : Except Refusal Reader :=
  match r.pending with
  | .nothing => .ok r
  | .choice _ => .error .noValue
  | .valued o value => do
    pure { r with pending := .nothing, given := ← r.given.give o value }
  | .operand kind value => do
    kind.check value
    pure { r with
      pending := .nothing, given := { r.given with operands := r.given.operands ++ [value] } }

/-- Reads an operand. -/
def operand (form : Form) (r : Reader) (word : String) : Except Refusal Reader :=
  match form.operands[r.operandCount]? with
  | some kind => do pure { ← r.settle with pending := .operand kind word }
  | none =>
    if form.commands.isEmpty || (r.operandsOnly && form.commands.contains word) then
      .error .unknownArgument
    else .error .unknownCommand

/-- Refuses for a wish, once all before it has been looked at. -/
def wish (r : Reader) (wanted : Refusal) : Except Refusal Reader := do
  let _ ← r.settle
  .error wanted

/-- Reads an option, by its name and the value attached to it. -/
def option (form : Form) (r : Reader) (name : String) (attached : Option String) :
    Except Refusal Reader :=
  let wishes : List (String × Refusal) :=
    ("help", .helpWanted) :: if form.hasVersion then [("version", .versionWanted)] else []
  match wishes.lookup name, form.choices.find? (·.name == name) with
  | some wanted, _ => if attached.isSome then .error .needlessValue else r.wish wanted
  | none, none => .error .unknownArgument
  | none, some o =>
    match o.value, attached with
    | none, some _ => .error .needlessValue
    | some _, none => do pure { ← r.settle with pending := .choice o }
    | _, value? => do
      let r ← r.settle
      pure { r with given := ← r.given.give o (value?.getD "") }

/-- Reads an option of one letter; there are two, and both are wishes. -/
def letter (form : Form) (r : Reader) (c : Char) : Except Refusal Reader :=
  if c = 'h' then r.wish .helpWanted
  else if c = 'V' ∧ form.hasVersion then r.wish .versionWanted
  else .error .unknownArgument

/-- Reads a word. -/
def take (form : Form) (r : Reader) (word : String) : Except Refusal Reader :=
  if r.operandsOnly then r.operand form word
  else
    match word.toList with
    | ['-', '-'] => .ok { r with operandsOnly := true }
    | '-' :: '-' :: cs =>
      let name := String.ofList (cs.takeWhile (· ≠ '='))
      match cs.dropWhile (· ≠ '=') with
      | [] => r.option form name none
      | _ :: value => r.option form name (some (String.ofList value))
    | '-' :: c :: _ => r.letter form c
    | _ =>
      match r.pending with
      | .choice o => .ok { r with pending := .valued o word }
      | _ => r.operand form word

/-- Whether a word is read as a command. -/
def isCommand (form : Form) (r : Reader) (word : String) : Bool :=
  !r.operandsOnly && !r.awaitsValue && form.commands.contains word

end Reader

/-- Reads words up to a command; gives the command and the words behind it, if there is one. -/
def Form.read (form : Form) (r : Reader) :
    List String → Except Refusal (Reader × Option (String × List String))
  | [] => .ok (r, none)
  | word :: words =>
    if r.isCommand form word then .ok (r, some (word, words))
    else do form.read (← r.take form word) words

end Capsule
