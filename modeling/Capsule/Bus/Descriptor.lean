import Capsule.Bus.Property
import Capsule.Error

/-!
# Descriptors

What is known of a machine or an image, once its bag of properties has been found complete. Each
field has a property of its own, which must be there and of the right kind; the first that is not,
in the order of the fields, is reported. Other properties of the bag are not looked at.
-/

namespace Capsule

/-- The value of a property, which must be of a kind. -/
def require {α : Type} (bag : PropertyBag) (name : String) (kind : Kind)
    (value? : Property → Option α) : Except Error α :=
  match (bag.get? name).bind value? with
  | some a => .ok a
  | none => .error (.property name kind.name)

namespace Property

def requireText (bag : PropertyBag) (name : String) : Except Error String :=
  require bag name .text fun
    | .text s => some s
    | _ => none

def requireBool (bag : PropertyBag) (name : String) : Except Error Bool :=
  require bag name .bool fun
    | .bool b => some b
    | _ => none

def requireUInt32 (bag : PropertyBag) (name : String) : Except Error UInt32 :=
  require bag name .uint32 fun
    | .uint32 n => some n
    | _ => none

def requireUInt64 (bag : PropertyBag) (name : String) : Except Error UInt64 :=
  require bag name .uint64 fun
    | .uint64 n => some n
    | _ => none

def requireBytes (bag : PropertyBag) (name : String) : Except Error (List UInt8) :=
  require bag name .bytes fun
    | .bytes bs => some bs
    | _ => none

def requireInt32s (bag : PropertyBag) (name : String) : Except Error (List Int32) :=
  require bag name .int32s fun
    | .int32s ns => some ns
    | _ => none

end Property

/-- What is known of a machine. -/
structure MachineDescriptor where
  name : String
  /-- When the machine was registered, by the clock that is never set, in microseconds. -/
  timestampMonotonic : UInt64
  /-- When the machine was registered, in microseconds. -/
  timestamp : UInt64
  /-- The host's ends of the machine's network links. -/
  networkInterfaces : List Int32
  id : List UInt8
  kind : String
  /-- The process that everything in the machine descends from. -/
  leader : UInt32
  rootDirectory : String
  /-- Who registered the machine. -/
  service : String
  state : String
  unit : String
deriving DecidableEq, Repr, Inhabited

namespace MachineDescriptor

open Property

/-- The machine that a bag describes. -/
def ofBag (bag : PropertyBag) : Except Error MachineDescriptor := do
  let name ← requireText bag "Name"
  let timestampMonotonic ← requireUInt64 bag "TimestampMonotonic"
  let timestamp ← requireUInt64 bag "Timestamp"
  let networkInterfaces ← requireInt32s bag "NetworkInterfaces"
  let id ← requireBytes bag "Id"
  let kind ← requireText bag "Class"
  let leader ← requireUInt32 bag "Leader"
  let rootDirectory ← requireText bag "RootDirectory"
  let service ← requireText bag "Service"
  let state ← requireText bag "State"
  let unit ← requireText bag "Unit"
  pure { name, timestampMonotonic, timestamp, networkInterfaces, id, kind, leader, rootDirectory,
         service, state, unit }

/-- The machine as a JSON object. -/
def toJson (m : MachineDescriptor) : Json :=
  .object [
    ("name", .string m.name),
    ("timestamp_monotonic", .ofNat m.timestampMonotonic.toNat),
    ("timestamp", .ofNat m.timestamp.toNat),
    ("network_interfaces", .array (m.networkInterfaces.map fun n => .ofInt n.toInt)),
    ("id", .array (m.id.map fun b => .ofNat b.toNat)),
    ("class", .string m.kind),
    ("leader", .ofNat m.leader.toNat),
    ("root_directory", .string m.rootDirectory),
    ("service", .string m.service),
    ("state", .string m.state),
    ("unit", .string m.unit)]

end MachineDescriptor

/-- What is known of an image. Sizes are in bytes and times in microseconds. -/
structure ImageDescriptor where
  creationTimestamp : UInt64
  limit : UInt64
  limitExclusive : UInt64
  modificationTimestamp : UInt64
  name : String
  path : String
  readOnly : Bool
  kind : String
  usage : UInt64
  usageExclusive : UInt64
deriving DecidableEq, Repr, Inhabited

namespace ImageDescriptor

open Property

/-- The image that a bag describes. -/
def ofBag (bag : PropertyBag) : Except Error ImageDescriptor := do
  let creationTimestamp ← requireUInt64 bag "CreationTimestamp"
  let limit ← requireUInt64 bag "Limit"
  let limitExclusive ← requireUInt64 bag "LimitExclusive"
  let modificationTimestamp ← requireUInt64 bag "ModificationTimestamp"
  let name ← requireText bag "Name"
  let path ← requireText bag "Path"
  let readOnly ← requireBool bag "ReadOnly"
  let kind ← requireText bag "Type"
  let usage ← requireUInt64 bag "Usage"
  let usageExclusive ← requireUInt64 bag "UsageExclusive"
  pure { creationTimestamp, limit, limitExclusive, modificationTimestamp, name, path, readOnly,
         kind, usage, usageExclusive }

/-- The image as a JSON object. -/
def toJson (i : ImageDescriptor) : Json :=
  .object [
    ("creation_timestamp", .ofNat i.creationTimestamp.toNat),
    ("limit", .ofNat i.limit.toNat),
    ("limit_exclusive", .ofNat i.limitExclusive.toNat),
    ("modification_timestamp", .ofNat i.modificationTimestamp.toNat),
    ("name", .string i.name),
    ("path", .string i.path),
    ("read_only", .bool i.readOnly),
    ("kind", .string i.kind),
    ("usage", .ofNat i.usage.toNat),
    ("usage_exclusive", .ofNat i.usageExclusive.toNat)]

end ImageDescriptor

end Capsule
