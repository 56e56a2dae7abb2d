import Capsule.Task.Child

/-!
# A small shell

A rehearsal has to say what becomes of a program that is a shell script, and for that the scripts
are interpreted, as far as they go: simple commands, joined by line breaks, semicolons, `&&` and
`||`; words with quotation marks and parameters; and the commands that set a status, print, sleep,
or send a signal to the shell itself. A command that is not known gives the status 127.

Nothing takes time here. That a script sleeps is noted, for a signal that is sent to it finds it
asleep.

## Main definitions

* `Shell.lex`, `Shell.words`: a script as pieces, and their expansion into words
* `Shell.command`: one command
* `Shell.run`: a script
-/

namespace Capsule

/-- What a program comes to. -/
structure Fate where
  output : String := ""
  errors : String := ""
  status : WaitStatus := .exited 0
  /-- It sleeps before it ends. -/
  sleeps : Bool := false
deriving DecidableEq, Repr, Inhabited

/-- A number as the status of a program, which is a byte. -/
def Fate.code (n : Nat) : WaitStatus := .exited (UInt8.ofNat n)

/-! ### Signals -/

namespace Signal

/-- Signals by their names and numbers. -/
def numbers : List (String × Nat) :=
  [("HUP", 1), ("INT", 2), ("QUIT", 3), ("ILL", 4), ("TRAP", 5), ("ABRT", 6), ("BUS", 7),
   ("FPE", 8), ("KILL", 9), ("USR1", 10), ("SEGV", 11), ("USR2", 12), ("PIPE", 13), ("ALRM", 14),
   ("TERM", 15), ("CHLD", 17), ("CONT", 18), ("STOP", 19), ("URG", 23), ("XCPU", 24),
   ("XFSZ", 25), ("VTALRM", 26), ("PROF", 27), ("WINCH", 28), ("SYS", 31)]

/-- The number of a signal that is given by its number or its name. -/
def number? (name : String) : Option Nat :=
  match name.toNat? with
  | some n => some n
  | none => (numbers.find? fun e => e.1 == name || "SIG" ++ e.1 == name).map (·.2)

/-- Signals that do not end a process: the probe, and those that are ignored by default. -/
def isHarmless (number : Nat) : Bool := [0, 17, 18, 23, 28].contains number

end Signal

/-- What a program comes to when a signal is sent to it, which finds it alive if it sleeps. -/
def Fate.signalled (f : Fate) (name : String) : Fate :=
  match Signal.number? name with
  | some n =>
    if f.sleeps && !Signal.isHarmless n then
      { f with sleeps := false, status := .killed (UInt8.ofNat n) }
    else f
  | none => f

/-- A shell: its parameters, and what has come of it so far. -/
structure Shell where
  name : String
  operands : List String
  environment : List (String × String)
  /-- The status of the last command. -/
  last : Nat := 0
  fate : Fate := {}
  /-- The shell has ended. -/
  ended : Bool := false
deriving DecidableEq, Repr, Inhabited

namespace Shell

/-- The number of a process of a rehearsal. -/
def pid : Nat := 4242

/-! ### Scripts -/

/-- How a command is joined to the one before it. -/
inductive Joint
  | always
  | onSuccess
  | onFailure
deriving DecidableEq, Repr, Inhabited

/-- A piece of a script. -/
inductive Piece
  | char (c : Char)
  /-- A parameter, and what stands for it when it is not set, or when it is empty either. -/
  | parameter (name : String) (otherwise : Option (Bool × String)) (quoted : Bool)
  /-- A quotation mark: even an empty quotation makes a word. -/
  | mark
  | blank
  | joint (joint : Joint)
deriving DecidableEq, Repr, Inhabited

def isNameChar (c : Char) : Bool := c.isAlphanum || c == '_'

/-- A parameter in braces: its name, and what stands for it. -/
def braced (quoted : Bool) (body : List Char) : Piece :=
  let size := match body with
    | c :: _ => if isNameChar c then (body.takeWhile isNameChar).length else 1
    | [] => 0
  .parameter (String.ofList (body.take size))
    (match body.drop size with
      | ':' :: '-' :: cs => some (true, String.ofList cs)
      | '-' :: cs => some (false, String.ofList cs)
      | _ => none)
    quoted

theorem length_dropWhile_le {α : Type} (p : α → Bool) (l : List α) :
    (l.dropWhile p).length ≤ l.length :=
  (List.dropWhile_suffix p).length_le

/-- The pieces of a script. -/
def lex (quoted : Bool) : List Char → List Piece
  | [] => []
  | '"' :: cs => .mark :: lex (!quoted) cs
  | '$' :: '{' :: cs =>
    braced quoted (cs.takeWhile (· ≠ '}')) :: lex quoted (cs.dropWhile (· ≠ '}')).tail
  | '$' :: c :: cs =>
    if c.isDigit || ['#', '?', '$', '@', '*'].contains c then
      .parameter (String.singleton c) none quoted :: lex quoted cs
    else if isNameChar c then
      .parameter (String.ofList (c :: cs.takeWhile isNameChar)) none quoted ::
        lex quoted (cs.dropWhile isNameChar)
    else .char '$' :: lex quoted (c :: cs)
  | '\\' :: c :: cs => .char c :: lex quoted cs
  | c :: cs =>
    if quoted then .char c :: lex quoted cs
    else
      match c, cs with
      | '\'', cs =>
        let body := cs.takeWhile (· ≠ '\'')
        .mark :: (body.map .char ++ lex quoted (cs.dropWhile (· ≠ '\'')).tail)
      | '&', '&' :: cs => .joint .onSuccess :: lex quoted cs
      | '|', '|' :: cs => .joint .onFailure :: lex quoted cs
      | ';', cs => .joint .always :: lex quoted cs
      | '\n', cs => .joint .always :: lex quoted cs
      | ' ', cs => .blank :: lex quoted cs
      | '\t', cs => .blank :: lex quoted cs
      | c, cs => .char c :: lex quoted cs
termination_by cs => cs.length
decreasing_by
  all_goals
    have := length_dropWhile_le (· ≠ '}') cs
    have := length_dropWhile_le (· ≠ '\'') cs
    have := length_dropWhile_le isNameChar cs
    simp_all only [List.length_cons, List.length_tail]
    omega

/-- The commands of a script, each with its joint. -/
def commands (joint : Joint) (here : List Piece) : List Piece → List (Joint × List Piece)
  | [] => [(joint, here.reverse)]
  | .joint next :: ps => (joint, here.reverse) :: commands next [] ps
  | p :: ps => commands joint (p :: here) ps

/-! ### Words -/

variable (s : Shell)

/-- The value of a parameter that is set. -/
def value? (name : String) : Option String :=
  match name with
  | "#" => some (toString s.operands.length)
  | "?" => some (toString s.last)
  | "$" => some (toString pid)
  | "0" => some s.name
  | "@" => some (" ".intercalate s.operands)
  | "*" => some (" ".intercalate s.operands)
  | name =>
    match name.toNat? with
    | some n => s.operands[n - 1]?
    | none => s.environment.lookup name

/-- What a parameter is replaced by. -/
def expansion (name : String) (otherwise : Option (Bool × String)) : String :=
  match s.value? name, otherwise with
  | none, some (_, word) => word
  | some "", some (true, word) => word
  | value, _ => value.getD ""

/-- The words of a command. `word` is the one that is being put together, if one is. -/
def words (word : Option String) : List Piece → List String
  | [] => word.toList
  | .char c :: ps => words (some (word.getD "" ++ String.singleton c)) ps
  | .mark :: ps => words (some (word.getD "")) ps
  | .blank :: ps => word.toList ++ words none ps
  | .joint _ :: ps => word.toList ++ words none ps
  | .parameter name otherwise quoted :: ps =>
    let value := s.expansion name otherwise
    if quoted then words (some (word.getD "" ++ value)) ps
    else
      match (value.toList.splitOn ' ').map String.ofList with
      | [] => words word ps
      | [v] => words (if v.isEmpty then word else some (word.getD "" ++ v)) ps
      | v :: vs =>
        let first := if v.isEmpty then word.toList else [word.getD "" ++ v]
        let last := vs.getLastD ""
        first ++ (vs.dropLast.filter fun v => !v.isEmpty) ++
          words (if last.isEmpty then none else some last) ps

/-! ### Commands -/

/-- The shell with the status of a command. -/
def status (n : Nat) : Shell := { s with last := n }

/-- The shell at its end. -/
def leave (status : WaitStatus) : Shell := { s with ended := true, fate := { s.fate with status } }

/-- The status of a test: zero if it holds. -/
def test (words : List String) : Nat :=
  let truth (b : Bool) : Nat := if b then 0 else 1
  let compare (holds : Int → Int → Bool) (a b : String) : Nat :=
    match a.toInt?, b.toInt? with
    | some m, some n => truth (holds m n)
    | _, _ => 2
  match words with
  | [] => 1
  | ["-n", a] => truth (!a.isEmpty)
  | ["-z", a] => truth a.isEmpty
  | ["!", a] => truth a.isEmpty
  | [a] => truth (!a.isEmpty)
  | [a, "=", b] => truth (a == b)
  | [a, "!=", b] => truth (a != b)
  | [a, "-eq", b] => compare (· == ·) a b
  | [a, "-ne", b] => compare (· != ·) a b
  | [a, "-lt", b] => compare (· < ·) a b
  | [a, "-le", b] => compare (· ≤ ·) a b
  | [a, "-gt", b] => compare (· > ·) a b
  | [a, "-ge", b] => compare (· ≥ ·) a b
  | _ => 2

/-- Sends a signal, by its name, to some processes, of which only the shell itself is known. -/
def kill (signal : String) (pids : List String) : Shell :=
  match Signal.number? signal with
  | none => s.status 2
  | some n =>
    if !pids.contains (toString pid) then s.status 1
    else if Signal.isHarmless n then s.status 0
    else s.leave (.killed (UInt8.ofNat n))

/-- Prints a text where a command's words send it. -/
def print (words : List String) (text : String) : Shell :=
  let fate :=
    if words.contains ">&2" then { s.fate with errors := s.fate.errors ++ text }
    else { s.fate with output := s.fate.output ++ text }
  { s with last := 0, fate }

/-- One command. -/
def command (words : List String) : Shell :=
  match words.filter fun w => !(">".isPrefixOf w || "2>".isPrefixOf w) with
  | [] => s.status 0
  | ["exit"] => s.leave (Fate.code s.last)
  | "exit" :: n :: _ => s.leave (Fate.code (n.toNat?.getD 2))
  | "kill" :: "-s" :: name :: pids => s.kill name pids
  | "kill" :: w :: pids =>
    match w.toList with
    | '-' :: name => s.kill (String.ofList name) pids
    | _ => s.kill "TERM" (w :: pids)
  | "sleep" :: _ => { s with last := 0, fate := { s.fate with sleeps := true } }
  | "true" :: _ => s.status 0
  | ":" :: _ => s.status 0
  | "false" :: _ => s.status 1
  | "echo" :: texts => s.print words (" ".intercalate texts ++ "\n")
  | "[" :: rest => s.status (test rest.dropLast)
  | "test" :: rest => s.status (test rest)
  | w :: _ =>
    match w.toList.dropWhile isNameChar with
    | '=' :: value =>
      let name := String.ofList (w.toList.takeWhile isNameChar)
      { s with last := 0, environment := (name, String.ofList value) :: s.environment }
    | _ => s.status 127

/-- Goes on with a command, if it is its turn. -/
def next (c : Joint × List Piece) : Shell :=
  let words := s.words none c.2
  let skipped := match c.1 with
    | .always => false
    | .onSuccess => s.last ≠ 0
    | .onFailure => s.last == 0
  if s.ended || skipped || words.isEmpty then s else s.command words

/-- A script, without its comments, from beginning to end. -/
def run (script : List Char) : Fate :=
  let lines := (script.splitOn '\n').filter fun line => line.head? != some '#'
  let pieces := lex false (['\n'].intercalate lines)
  let s := (commands .always [] pieces).foldl next s
  if s.ended then s.fate else { s.fate with status := Fate.code s.last }

end Shell

end Capsule
