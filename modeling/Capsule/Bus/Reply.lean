import Capsule.Bus.Property
import Capsule.Bus.Transfer
import Capsule.Error

/-!
# Replies of the bus

A reply is a JSON object whose member `data` holds the arguments that a call gives out. What is
wanted of them differs from call to call; a reply of another shape is refused and shown as it is,
and of a list of transfers the first row that is not one.
-/

namespace Capsule.Reply

def unexpected {α : Type} (what : String) (reply : Json) : Except Error α :=
  .error (.bus (.unexpected what reply))

/-- An item of an array by its position. -/
def item? (j : Json) (position : Nat) : Option Json := do
  let items ← j.items?
  items[position]?

/-- The first argument that a call gave out. -/
def firstArgument? (reply : Json) : Option Json := do
  let data ← reply.member? "data"
  item? data 0

/-- The object that a call asked for. -/
def objectPath (reply : Json) : Except Error String :=
  match (firstArgument? reply).bind Json.text? with
  | some path => .ok path
  | none => unexpected "object path" reply

/-- The members of an object. -/
def members? : Json → Option (List (String × Json))
  | .object ms => some ms
  | _ => none

/-- The property that a member of a bag is, if it is of a kind that is known. -/
def property? (member : String × Json) : Option (String × Property) := do
  let signature := ((member.2.member? "type").bind Json.text?).getD ""
  let data := (member.2.member? "data").getD .null
  let value ← Property.ofVariant? signature data
  pure (member.1, value)

/-- The properties of an object; those of other kinds are left out. -/
def properties (reply : Json) : Except Error PropertyBag :=
  match (firstArgument? reply).bind members? with
  | some ms => .ok (TextMap.ofList (ms.filterMap property?))
  | none => unexpected "GetAll" reply

/-- A row of the list of transfers. -/
def transfer? (row : Json) : Option Transfer := do
  let id ← (item? row 0).bind Json.uint32?
  let kind ← (item? row 1).bind Json.text?
  let remote ← (item? row 2).bind Json.text?
  let localName ← (item? row 3).bind Json.text?
  let progress ← item? row 4
  pure { id, kind, remote, localName, progress := progress.doubleOrNaN }

/-- A row that must be a transfer. -/
def transferRow (row : Json) : Except Error Transfer :=
  match transfer? row with
  | some t => .ok t
  | none => unexpected "transfer" row

/-- The transfers that are going on. -/
def transfers (reply : Json) : Except Error (List Transfer) :=
  match (firstArgument? reply).bind Json.items? with
  | some rows => rows.mapM transferRow
  | none => unexpected "ListTransfers" reply

/-- The transfer that a call started. -/
def started (reply : Json) : Except Error StartedTransfer :=
  let data := reply.member? "data"
  match (data.bind (item? · 0)).bind Json.uint32?, (data.bind (item? · 1)).bind Json.text? with
  | some id, some path => .ok { id, path }
  | _, _ => unexpected "pull" reply

end Capsule.Reply
