import Capsule.Rehearsal

/-!
# Rehearsals as JSON

A rehearsal is written as an object with up to three members:

* `fs`: the files beside those that every host has, in the order in which they are put there. Each
  has a `path` from the working directory and a `kind`: `dir`, `file`, `exec` for a file that may
  be run, or `link` with its `target`. A file has its `content`.
* `busctl`: the prepared runs of the bus client, each with its `stdout`, its `stderr` and its
  `code`. Without this member there is no such client.
* `settings`: what the environment names for settings.

Bytes that are no text are written in hexadecimal, under a key that ends in `_hex`. What is
missing is empty.
-/

namespace Capsule

namespace Rehearsal

/-- The items of a member that is an array. -/
def itemsOf (j : Json) (key : String) : List Json := ((j.member? key).bind Json.items?).getD []

/-- The text of a member. -/
def textOf (j : Json) (key : String) : String := ((j.member? key).bind Json.text?).getD ""

/-- The bytes that pairs of hexadecimal digits denote. -/
def hexBytes : List Char → List UInt8
  | a :: b :: rest => UInt8.ofNat ((Hex.number? [a, b]).getD 0) :: hexBytes rest
  | _ => []

/-- The bytes of a member. -/
def bytesOf (j : Json) (key : String) : List UInt8 :=
  match j.member? (key ++ "_hex") with
  | some digits => hexBytes (digits.text?.getD "").toList
  | none => Utf8.encode (textOf j key)

/-- An entry of the file system. -/
def entryOf (j : Json) : Entry :=
  match textOf j "kind" with
  | "dir" => .directory
  | "link" => .link (textOf j "target")
  | kind => .file (bytesOf j "content") (kind == "exec")

/-- The files of a host whose working directory is at a place. -/
def filesOf (directory : Place) (j : Json) : Files :=
  (itemsOf j "fs").foldl (fun files e =>
    let names := (Path.names (textOf e "path")).filter fun n => n ≠ "" ∧ n ≠ "."
    files.put (names.reverse ++ directory) (entryOf e))
    ((systemFiles (j.member? "busctl").isSome).insertParents directory)

/-- A prepared run. -/
def runOf (j : Json) : PreparedRun where
  succeeds :=
    match (j.member? "code").bind Json.number? with
    | some (.integer code) => code % 256 == 0
    | _ => true
  output := bytesOf j "stdout"
  errors := bytesOf j "stderr"

/-- The rehearsal that a JSON value describes, in a directory of the root. -/
def ofJson (directory : String) (j : Json) : Rehearsal where
  host := ⟨filesOf [directory] j, [directory], .ok ("/" ++ directory)⟩
  search := ⟨[Path.join ("/" ++ directory) "bin", clientDirectory] ++ systemSearch⟩
  client := { runs := (itemsOf j "busctl").map runOf }
  architecture := "x86_64"
  settingsPath := (j.member? "settings").bind Json.text?

end Rehearsal

end Capsule
