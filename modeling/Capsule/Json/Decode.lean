import Capsule.Json.Document
import Capsule.Json.Printer
import Capsule.TextMap
import Capsule.Text.Quoted

/-!
# Decoding JSON documents

Decoders walk a `Doc` in text order and stop at the first problem, so a decoder's result is the
first problem of the text: a fault of the grammar, or a value that does not fit.

* `Decode.bool`, `Decode.text`, `Decode.natural`, `Decode.integer`, `Decode.texts`: values of one
  type
* `Decode.skip`: a value that is not wanted; only the grammar is checked
* `Decode.untyped`: any value, the last of several members with one key winning and members in key
  order
* `Decode.whole`: a decoder applied to a whole text
-/

namespace Capsule

/-- A value found where another was expected. -/
inductive Found
  | bool (value : Bool)
  | integer (value : Int)
  | real (value : Double)
  | text (value : String)
  | null
  | sequence
  | map
deriving DecidableEq, Repr

/-- Why a text does not decode to a value of the wanted type. -/
inductive Problem
  | fault (fault : Fault)
  | mismatch (found : Found) (expected : String)
  | outOfRange (value : Int) (expected : String)
  | duplicateField (name : String)
  | missingField (name : String)
  | unknownVariant (name : String) (variants : List String)
  | tooShort (length : Nat) (expected : String)
  /-- The value is neither a map of texts nor a sequence of such maps. -/
  | noStringMap
deriving DecidableEq, Repr

namespace Found

/-- A found value in a message. -/
def describe : Found → String
  | .bool true => "boolean `true`"
  | .bool false => "boolean `false`"
  | .integer n => "integer `" ++ String.ofList (Json.intChars n) ++ "`"
  | .real d => "floating point `" ++ String.ofList (Json.realChars d) ++ "`"
  | .text s => "string " ++ Quoted.quote s
  | .null => "null"
  | .sequence => "sequence"
  | .map => "map"

end Found

namespace Problem

/-- The variants of an enumeration in a message. -/
def variantList : List String → String
  | [a] => "`" ++ a ++ "`"
  | [a, b] => "`" ++ a ++ "` or `" ++ b ++ "`"
  | names => "one of " ++ ", ".intercalate (names.map fun n => "`" ++ n ++ "`")

/-- The wording of a problem, for all but faults of the grammar. -/
def message : Problem → String
  | .fault _ => ""
  | .mismatch found expected => "invalid type: " ++ found.describe ++ ", expected " ++ expected
  | .outOfRange n expected =>
    "invalid value: " ++ (Found.integer n).describe ++ ", expected " ++ expected
  | .duplicateField name => "duplicate field `" ++ name ++ "`"
  | .missingField name => "missing field `" ++ name ++ "`"
  | .unknownVariant name variants =>
    "unknown variant `" ++ name ++ "`, expected " ++ variantList variants
  | .tooShort n expected => "invalid length " ++ toString n ++ ", expected " ++ expected
  | .noStringMap => "data did not match any variant of untagged enum StringMapRepr"

end Problem

/-- A result of decoding. -/
abbrev Decoded (α : Type) := Except Problem α

/-- What is made in two parts is made if both are. -/
theorem Except.bind_eq_ok_iff {ε α β : Type} {x : Except ε α} {k : α → Except ε β} {b : β} :
    (x >>= k) = .ok b ↔ ∃ a, x = .ok a ∧ k a = .ok b := by
  cases x with
  | ok a =>
    show k a = .ok b ↔ _
    simp
  | error e =>
    show Except.error e = .ok b ↔ _
    simp

/-- A step that gives nothing is passed if it succeeds. -/
theorem Except.seq_eq_ok_iff {ε β : Type} {x : Except ε Unit} {k : Unit → Except ε β} {b : β} :
    (x >>= k) = .ok b ↔ x = .ok () ∧ k () = .ok b :=
  Except.bind_eq_ok_iff.trans ⟨fun ⟨(), h⟩ => h, fun h => ⟨(), h⟩⟩

namespace Decode

/-- Reading a leaf: a fault inside it is a problem. -/
def leaf {α : Type} (reading : Except Fault α) : Decoded α :=
  match reading with
  | .ok a => .ok a
  | .error f => .error (.fault f)

def fault {α : Type} (f : Fault) : Decoded α := .error (.fault f)

/-- The problem of a value that is not of the expected type. -/
def mismatch {α : Type} (expected : String) : Doc → Decoded α
  | .null => .error (.mismatch .null expected)
  | .bool b => .error (.mismatch (.bool b) expected)
  | .number reading => do
    match ← leaf reading with
    | .integer n => .error (.mismatch (.integer n) expected)
    | .real d => .error (.mismatch (.real d) expected)
  | .string reading => do .error (.mismatch (.text (← leaf reading)) expected)
  | .array _ _ => .error (.mismatch .sequence expected)
  | .object _ _ => .error (.mismatch .map expected)
  | .broken f _ => fault f

def bool : Doc → Decoded Bool
  | .bool b => .ok b
  | d => mismatch "a boolean" d

def text : Doc → Decoded String
  | .string reading => leaf reading
  | d => mismatch "a string" d

def unit : Doc → Decoded Unit
  | .null => .ok ()
  | d => mismatch "unit" d

/-- An unsigned word of sixty-four bits. -/
def word : Doc → Decoded Nat
  | .number (.ok (.integer n)) =>
    if 0 ≤ n ∧ n < Nat.pow 2 64 then .ok n.toNat else .error (.outOfRange n "u64")
  | d => mismatch "u64" d

/-- A signed word of thirty-two bits. -/
def int32 : Doc → Decoded Int
  | .number (.ok (.integer n)) =>
    if -(Nat.pow 2 31 : Int) ≤ n ∧ n < Nat.pow 2 31 then .ok n else .error (.outOfRange n "i32")
  | d => mismatch "i32" d

/-- An absent value is `null`. -/
def optional {α : Type} (decode : Doc → Decoded α) : Doc → Decoded (Option α)
  | .null => .ok none
  | d => (decode d).map some

/-- The end of a list of items that has been read to its end. -/
def ending : Ending → Decoded Unit
  | .closed => .ok ()
  | .missing f => fault f
  | .afterComma f => fault f

/-- The end of an array or object of which no more is wanted: only the closing bracket will do. -/
def closing : Ending → Decoded Unit
  | .closed => .ok ()
  | .missing f => fault f
  | .afterComma _ => fault .malformed

/-- An array of texts. -/
def texts : Doc → Decoded (List String)
  | .array items e => do
    let words ← items.mapM text
    ending e
    pure words
  | d => mismatch "a sequence" d

mutual

/-- A value that is not wanted. -/
def skip : Doc → Decoded Unit
  | .broken _ f => fault f
  | .array items e => do
    skipItems items
    ending e
  | .object members e => do
    skipMembers members
    ending e
  | _ => .ok ()

def skipItems : List Doc → Decoded Unit
  | [] => .ok ()
  | d :: ds => do
    skip d
    skipItems ds

def skipMembers : List (Key × Doc) → Decoded Unit
  | [] => .ok ()
  | (.text _, d) :: ms => do
    skip d
    skipMembers ms
  | (.other, _) :: _ => fault .malformed

end

/-- How deep arrays and objects may be nested. -/
def nestingLimit : Nat := 127

mutual

/-- Any value, in which arrays and objects are nested at most `room` deep. -/
def untypedIn (room : Nat) : Doc → Decoded Json
  | .null => .ok .null
  | .bool b => .ok (.bool b)
  | .number reading => (leaf reading).map .number
  | .string reading => (leaf reading).map .string
  | .array items e =>
    match room with
    | 0 => fault .malformed
    | room + 1 => do
      let xs ← untypedItems room items
      ending e
      pure (.array xs)
  | .object members e =>
    match room with
    | 0 => fault .malformed
    | room + 1 => do
      let ms ← untypedMembers room members []
      ending e
      pure (.object ms)
  | .broken f _ => fault f

def untypedItems (room : Nat) : List Doc → Decoded (List Json)
  | [] => .ok []
  | d :: ds => do
    let x ← untypedIn room d
    let xs ← untypedItems room ds
    pure (x :: xs)

def untypedMembers (room : Nat) :
    List (Key × Doc) → List (String × Json) → Decoded (List (String × Json))
  | [], soFar => .ok soFar
  | (.text key, d) :: ms, soFar => do
    let k ← leaf key
    let v ← untypedIn room d
    untypedMembers room ms (insertEntry k v soFar)
  | (.other, _) :: _, _ => fault .malformed

end

/-- Any value. -/
def untyped : Doc → Decoded Json := untypedIn nestingLimit

/-- The name of a variant of an enumeration: a string, or an object with that one member, whose
value is `null`. -/
def variant (variants : List String) : Doc → Decoded String
  | .string reading => do
    let name ← leaf reading
    if name ∈ variants then pure name else .error (.unknownVariant name variants)
  | .object [] .closed => fault .malformed
  | .object [] (.missing f) => fault f
  | .object [] (.afterComma f) => fault f
  | .object ((.other, d) :: _) _ => mismatch "variant identifier" d
  | .object ((.text key, d) :: ms) e => do
    let name ← leaf key
    if name ∈ variants then
      unit d
      if ms.isEmpty then closing e else fault .malformed
      pure name
    else .error (.unknownVariant name variants)
  | .broken (.unfinished .inToken) _ => fault .malformed
  | .broken f _ => fault f
  | _ => fault .malformed

/-- A decoder applied to a whole text, behind whose value nothing but blanks may follow. -/
def whole {α : Type} (decode : Doc → Decoded α) (text : List Char) : Decoded α := do
  let (d, rest) := Doc.read text
  let a ← decode d
  match rest with
  | none => pure a
  | some f => fault f

end Decode

end Capsule
