import Capsule.Json.Decode
import Capsule.Yaml.Decode

/-!
# Records of named fields

A record is described once, by the table of its fields, and everything that has to know the fields
works from that table: reading a JSON object or array, reading a YAML mapping, and writing JSON.

A field pairs a name with a part of the record and a codec for values of that part's type. Reading
starts from the record of default values and puts one value after the other into its place.

* In an object the members come in any order. One with an unknown key is skipped, one whose key was
  seen before is a problem before its value is looked at.
* In an array the values come in the order of the table. A shorter one leaves defaults; a longer
  one is no document at all.
* In YAML only mappings will do, except that nothing written at all is the empty mapping.

A record with `required` fields has defaults for none of them to fall back on: the first of them, in
the order of the table, that an object lacks is a problem. Its array form must be complete.
-/

namespace Capsule

/-- How values of a type are read and written. -/
structure Codec (α : Type) where
  ofDoc : Doc → Decoded α
  ofNode? : Yaml.Document → Yaml.Node Nat → Option α
  /-- `none` where the value is left out. -/
  toJson? : α → Option Json

/-- A part of a whole. -/
structure Part (σ α : Type) where
  get : σ → α
  set : α → σ → σ

/-- A field of a record of type `σ`. -/
structure Field (σ : Type) where
  name : String
  ofDoc : Doc → σ → Decoded σ
  ofNode? : Yaml.Document → Yaml.Node Nat → σ → Option σ
  toJson? : σ → Option Json

/-- The field with a codec for a part. -/
def Field.of {σ α : Type} (name : String) (codec : Codec α) (part : Part σ α) : Field σ where
  name := name
  ofDoc d s := (codec.ofDoc d).map (part.set · s)
  ofNode? y n s := (codec.ofNode? y n).map (part.set · s)
  toJson? s := codec.toJson? (part.get s)

/-- A record: its name in messages, its defaults, and its fields. -/
structure Record (σ : Type) where
  title : String
  default : σ
  fields : List (Field σ)
  required : List String := []

namespace Codec

def bool : Codec Bool := ⟨Decode.bool, fun y n => y.bool? n, fun b => some (.bool b)⟩

def text : Codec String := ⟨Decode.text, fun y n => y.text? n, fun s => some (.string s)⟩

def texts : Codec (List String) :=
  ⟨Decode.texts, fun y n => y.texts? n, fun ws => some (.array (ws.map .string))⟩

def word : Codec Nat := ⟨Decode.word, fun y n => y.word? n, fun n => some (.ofNat n)⟩

def int32 : Codec Int := ⟨Decode.int32, fun _ _ => none, fun n => some (.ofInt n)⟩

/-- A text that may be `null`. -/
def nullableText : Codec (Option String) where
  ofDoc := Decode.optional Decode.text
  ofNode? y n := y.optional? y.text? n
  toJson? s := some (match s with
    | none => .null
    | some s => .string s)

/-! ### Maps of texts -/

/-- A member whose value is a text. -/
def textMember? : Key × Doc → Option (String × String)
  | (.text (.ok k), .string (.ok v)) => some (k, v)
  | _ => none

/-- The map of the members of an object all of whose values are texts. -/
def textMap? : Doc → Option StringMap
  | .object members _ => (members.mapM textMember?).map TextMap.ofList
  | _ => none

/-- A map of texts: an object, or an array of objects of which later entries win. -/
def stringMapOf? : Doc → Option StringMap
  | .array items _ => (items.mapM textMap?).map TextMap.merge
  | d => textMap? d

/-- A map of texts inside an object: the whole value is read before its shape is looked at. -/
def decodeStringMap : Doc → Decoded StringMap
  | .null => .ok .empty
  | d => do
    let _ ← Decode.untypedIn (Decode.nestingLimit - 1) d
    match stringMapOf? d with
    | some m => pure m
    | none => .error .noStringMap

def stringMap : Codec StringMap where
  ofDoc := decodeStringMap
  ofNode? y n := (y.optional? y.stringMap? n).map (·.getD .empty)
  toJson? m := some (.object (m.toList.map fun e => (e.1, .string e.2)))

end Codec

namespace Record

variable {σ : Type} (r : Record σ)

/-- The field with a name. -/
def field? (name : String) : Option (Field σ) := r.fields.find? (·.name == name)

/-- Reads the members of an object; also gives the names of the fields that were among them. -/
def ofMembers (seen : List String) (s : σ) : List (Key × Doc) → Decoded (σ × List String)
  | [] => .ok (s, seen)
  | (.other, _) :: _ => Decode.fault .malformed
  | (.text key, d) :: ms => do
    let k ← Decode.leaf key
    match r.field? k with
    | none =>
      Decode.skip d
      ofMembers seen s ms
    | some f =>
      if k ∈ seen then .error (.duplicateField k)
      else
        let s ← f.ofDoc d s
        ofMembers (k :: seen) s ms

/-- The first required field that is not among the names. -/
def missing? (seen : List String) : Option String :=
  r.required.find? fun n => !seen.contains n

/-- Reads the items of an array into the fields, of which `position` have been read. -/
def ofItems (position : Nat) (s : σ) : List (Field σ) → List Doc → Ending → Decoded σ
  | [], [], e => do
    Decode.closing e
    pure s
  | [], _ :: _, _ => Decode.fault .malformed
  | _ :: _, [], e => do
    Decode.ending e
    if r.required.isEmpty then pure s
    else .error (.tooShort position
      (r.title ++ " with " ++ toString r.fields.length ++ " elements"))
  | f :: fs, d :: ds, e => do
    let s ← f.ofDoc d s
    ofItems (position + 1) s fs ds e

/-- The record that a JSON document describes. -/
def ofDoc : Doc → Decoded σ
  | .object members e => do
    let (s, seen) ← r.ofMembers [] r.default members
    Decode.ending e
    match r.missing? seen with
    | none => pure s
    | some name => .error (.missingField name)
  | .array items e => r.ofItems 0 r.default r.fields items e
  | d => Decode.mismatch r.title d

/-- The record that a JSON text describes. -/
def ofJson (text : List Char) : Decoded σ := Decode.whole r.ofDoc text

/-- Reads the entries of a YAML mapping. -/
def ofEntries? (y : Yaml.Document) (seen : List String) (s : σ) :
    List (Yaml.Node Nat × Yaml.Node Nat) → Option σ
  | [] => some s
  | (key, n) :: es => do
    let k ← y.text? key
    match r.field? k with
    | none => ofEntries? y seen s es
    | some f => if k ∈ seen then none else ofEntries? y (k :: seen) (← f.ofNode? y n s) es

/-- The record that a YAML node describes. -/
def ofNode? (y : Yaml.Document) (n : Yaml.Node Nat) : Option σ := do
  let n ← y.deref n
  match n with
  | .mapping _ entries => r.ofEntries? y [] r.default entries
  | n => if Yaml.Document.isAbsent n then some r.default else none

/-- The record that a YAML text describes. -/
def ofYaml? (text : List Char) : Option σ := do
  let y ← Yaml.Document.ofText? text
  match y.root with
  | none => some r.default
  | some n => r.ofNode? y n

/-- The record as a JSON object, its fields in the order of the table. -/
def toJson (s : σ) : Json :=
  .object (r.fields.filterMap fun f => (f.toJson? s).map fun v => (f.name, v))

end Record

/-- A record as the value of a field, left out where there is none. -/
def Codec.block {τ : Type} (r : Record τ) : Codec (Option τ) where
  ofDoc := Decode.optional r.ofDoc
  ofNode? y n := y.optional? (r.ofNode? y) n
  toJson? t := t.map r.toJson

end Capsule
