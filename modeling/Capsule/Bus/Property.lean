import Capsule.Json.Value
import Capsule.TextMap

/-!
# Properties

What the bus says of a machine or an image is a bag of properties, each a name with a value of one
of eight kinds. On the wire a value is a variant: the signature of its kind, and its data as JSON.

* `Property.signature` and `Property.data` write a value as a variant; the not-a-numbers among the
  doubles have no JSON form and are written as `null`.
* `Property.ofVariant?` reads one. Data that does not fit its signature, or a signature that none of
  the kinds has, gives no value. Only a double is never refused: data that is no number means that
  the number is not known.
-/

namespace Capsule

/-- The kinds of property values. -/
inductive Kind
  | bool
  | uint32
  | uint64
  | int32
  | double
  | text
  | bytes
  | int32s
deriving DecidableEq, Repr, Inhabited

/-- The name of a kind in messages. -/
def Kind.name : Kind → String
  | .bool => "bool"
  | .uint32 => "u32"
  | .uint64 => "u64"
  | .int32 => "i32"
  | .double => "f64"
  | .text => "string"
  | .bytes => "bytes"
  | .int32s => "i32 array"

/-- The value of a property. -/
inductive Property
  | bool (value : Bool)
  | uint32 (value : UInt32)
  | uint64 (value : UInt64)
  | int32 (value : Int32)
  | double (value : Double)
  | text (value : String)
  | bytes (value : List UInt8)
  | int32s (value : List Int32)
deriving DecidableEq, Repr, Inhabited

/-- Named properties. -/
abbrev PropertyBag := TextMap Property

namespace Json

def bool? : Json → Option Bool
  | .bool b => some b
  | _ => none

/-- The unsigned word of so many bits that a value is. -/
def natural? (bits : Nat) (j : Json) : Option Nat := j.number?.bind (·.natural? bits)

/-- The signed word of so many bits that a value is. -/
def integer? (bits : Nat) (j : Json) : Option Int := j.number?.bind (·.integer? bits)

def uint8? (j : Json) : Option UInt8 := (j.natural? 8).map UInt8.ofNat

def uint32? (j : Json) : Option UInt32 := (j.natural? 32).map UInt32.ofNat

def uint64? (j : Json) : Option UInt64 := (j.natural? 64).map UInt64.ofNat

def int32? (j : Json) : Option Int32 := (j.integer? 32).map Int32.ofInt

/-- The number that a value is, or the one that stands for "not known". -/
def doubleOrNaN (j : Json) : Double :=
  match j.number? with
  | some n => n.toDouble
  | none => .nan

end Json

namespace Property

def kind : Property → Kind
  | .bool _ => .bool
  | .uint32 _ => .uint32
  | .uint64 _ => .uint64
  | .int32 _ => .int32
  | .double _ => .double
  | .text _ => .text
  | .bytes _ => .bytes
  | .int32s _ => .int32s

/-- The signature of a value on the wire. -/
def signature : Property → String
  | .bool _ => "b"
  | .uint32 _ => "u"
  | .uint64 _ => "t"
  | .int32 _ => "i"
  | .double _ => "d"
  | .text _ => "s"
  | .bytes _ => "ay"
  | .int32s _ => "ai"

/-- A finite double as JSON, anything else as `null`. -/
def doubleData (d : Double) : Json :=
  if d.isNaN || d.isInfinite then .null else .number (.real d)

/-- The data of a value on the wire. -/
def data : Property → Json
  | .bool b => .bool b
  | .uint32 n => .ofNat n.toNat
  | .uint64 n => .ofNat n.toNat
  | .int32 n => .ofInt n.toInt
  | .double d => doubleData d
  | .text s => .string s
  | .bytes bs => .array (bs.map fun b => .ofNat b.toNat)
  | .int32s ns => .array (ns.map fun n => .ofInt n.toInt)

/-- The value of a variant. -/
def ofVariant? (signature : String) (data : Json) : Option Property :=
  match signature with
  | "b" => data.bool?.map .bool
  | "u" => data.uint32?.map .uint32
  | "t" => data.uint64?.map .uint64
  | "i" => data.int32?.map .int32
  | "d" => some (.double data.doubleOrNaN)
  | "s" | "o" | "g" => data.text?.map .text
  | "ay" => do
    let items ← data.items?
    (items.mapM Json.uint8?).map .bytes
  | "ai" => do
    let items ← data.items?
    (items.mapM Json.int32?).map .int32s
  | _ => none

end Property

end Capsule
