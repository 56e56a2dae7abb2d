import Capsule.Yaml.Node
import Capsule.Yaml.Core
import Capsule.TextMap

/-!
# Decoding YAML documents

What a node gives where a value of some type is wanted. A text is taken from any scalar as it is
written; a boolean or an integer only from a plain one. In a map of texts scalars are typed first,
so only those that mean a text will do there.

Nothing is said about why a document does not decode.
-/

namespace Capsule.Yaml.Document

/-- The tag of a type of YAML's own. -/
def coreTag (name : String) : List Char := ("tag:yaml.org,2002:" ++ name).toList

/-- Whether a scalar may hold a boolean or a number: a plain one, or a literal block with the tag of
that type. -/
def mayHold (tagName : String) (p : Properties) : Style → Bool
  | .plain => true
  | .literal => p.tag == some (coreTag tagName)
  | _ => false

/-- Nothing is written. -/
def isAbsent : Node Nat → Bool
  | .scalar _ .plain [] => true
  | _ => false

def text? (d : Document) (n : Node Nat) : Option String := do
  match ← d.deref n with
  | .scalar _ _ s => some (String.ofList s)
  | _ => none

def bool? (d : Document) (n : Node Nat) : Option Bool := do
  match ← d.deref n with
  | .scalar p style s => if mayHold "bool" p style then Core.bool? s else none
  | _ => none

/-- An unsigned word of sixty-four bits. -/
def word? (d : Document) (n : Node Nat) : Option Nat := do
  match ← d.deref n with
  | .scalar p style s => if mayHold "int" p style then Core.natural? (Nat.pow 2 64) s else none
  | _ => none

/-- A sequence of texts; where nothing is written, the empty one. -/
def texts? (d : Document) (n : Node Nat) : Option (List String) := do
  let n ← d.deref n
  match n with
  | .sequence _ items => items.mapM d.text?
  | n => if isAbsent n then some [] else none

/-- Whether a value is present: it is not where nothing or a null is written. -/
def isPresent? : Node Nat → Option Bool
  | .scalar p .plain s =>
    match p.tag with
    | none => some !(s.isEmpty || Core.isNull s)
    | some t =>
      if t = coreTag "null" then (if Core.isNull s then some false else none) else some true
  | _ => some true

/-- An absent value is `none`. -/
def optional? {α : Type} (d : Document) (decode : Node Nat → Option α) (n : Node Nat) :
    Option (Option α) := do
  let n ← d.deref n
  if ← isPresent? n then (decode n).map some else some none

/-! ### Maps of texts -/

/-- A tag of the document's own asks for a type that nothing here has. -/
def isForeign (p : Properties) : Bool := (p.tag.getD []).head? == some '!'

/-- A scalar that means a text. -/
def typedText? (d : Document) (n : Node Nat) : Option String := do
  match ← d.deref n with
  | .scalar p style s =>
    let isText : Bool := match p.tag with
      | none => style != .plain || Core.isText s
      | some t =>
        !(isForeign p || t == coreTag "bool" || t == coreTag "int" || t == coreTag "float" ||
          t == coreTag "null")
    if isText then some (String.ofList s) else none
  | _ => none

/-- An entry of texts. -/
def typedPair? (d : Document) (e : Node Nat × Node Nat) : Option (String × String) := do
  pure (← d.typedText? e.1, ← d.typedText? e.2)

/-- The map of the entries of a mapping from texts to texts. -/
def textMap? (d : Document) (n : Node Nat) : Option StringMap := do
  match ← d.deref n with
  | .mapping p entries =>
    if isForeign p then none else (entries.mapM d.typedPair?).map TextMap.ofList
  | _ => none

/-- A map of texts: a mapping, or a sequence of mappings of which later entries win. -/
def stringMap? (d : Document) (n : Node Nat) : Option StringMap := do
  match ← d.deref n with
  | .sequence p items =>
    if isForeign p then none else (items.mapM d.textMap?).map TextMap.merge
  | n => d.textMap? n

end Capsule.Yaml.Document
