import Capsule.Bus.Call

/-!
# Buses with prepared answers

A script holds all answers of a bus beforehand: one for each image that is known, one for a pull,
and for machines and transfers the answers in the order in which they are asked for. Behind the
last of these no machine is known and no transfer is going on.
-/

namespace Capsule

/-- The prepared answers of a bus. -/
structure Script where
  images : TextMap (Answer PropertyBag) := .empty
  machines : List (Answer PropertyBag) := []
  transfers : List (Answer (List Transfer)) := []
  pull : Answer StartedTransfer := .after 0 (.ok ⟨7, ""⟩)

instance : Inhabited Script := ⟨{}⟩

namespace Script

/-- The answer about something that is not known. -/
def unknown {α : Type} (kind name : String) : Answer α :=
  .after 0 (.error (.bus (.reported ("no " ++ kind ++ " '" ++ name ++ "' known"))))

def describeMachine (name : String) (s : Script) : Answer PropertyBag × Script :=
  match s.machines with
  | [] => (unknown "machine" name, s)
  | a :: rest => (a, { s with machines := rest })

def describeImage (name : String) (s : Script) : Answer PropertyBag × Script :=
  ((s.images.get? name).getD (unknown "image" name), s)

def listTransfers (s : Script) : Answer (List Transfer) × Script :=
  match s.transfers with
  | [] => (.after 0 (.ok []), s)
  | a :: rest => (a, { s with transfers := rest })

/-- The bus that goes by a script. -/
def bus : Bus Script where
  describeMachine := describeMachine
  describeImage := describeImage
  listTransfers := listTransfers
  pull _ s := (s.pull, s)

end Script

end Capsule
