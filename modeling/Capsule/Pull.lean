import Capsule.Config
import Capsule.Error

/-!
# Requests for images

An image can be fetched as a tar archive or as a raw disk, and what was fetched is checked in one of
three ways. A `PullRequest` has these as values; a configuration has them as texts, and
`Download.request` is where the texts are read. Reading a text, naming a value and decoding one from
JSON each have their own words.
-/

namespace Capsule

/-- The form in which an image is fetched. -/
inductive ImageKind
  | tar
  | raw
deriving DecidableEq, Repr, Inhabited

namespace ImageKind

/-- The name of a kind, as it is sent. -/
def name : ImageKind → String
  | .tar => "tar"
  | .raw => "raw"

/-- The kind that a text is read as. -/
def ofName : String → Except Error ImageKind
  | "tar" => .ok .tar
  | "raw" => .ok .raw
  | other => .error (.invalid ⟨.imageKind, other⟩)

/-- The name of a kind, as a JSON value. -/
def decodeName : Doc → Decoded String := Decode.variant ["tar", "raw"]

end ImageKind

/-- How a fetched image is checked. -/
inductive VerifyMode
  | no
  | checksum
  | signature
deriving DecidableEq, Repr, Inhabited

namespace VerifyMode

/-- The name of a mode, as it is sent. -/
def name : VerifyMode → String
  | .no => "no"
  | .checksum => "checksum"
  | .signature => "signature"

/-- The mode that a text is read as. -/
def ofName : String → Except Error VerifyMode
  | "no" => .ok .no
  | "checksum" => .ok .checksum
  | "signature" => .ok .signature
  | other => .error (.invalid ⟨.verifyMode, other⟩)

/-- The name of a mode, as a JSON value. -/
def decodeName : Doc → Decoded String := Decode.variant ["no", "checksum", "signature"]

end VerifyMode

/-- What to fetch, and the name to keep it under. -/
structure PullRequest where
  url : String
  name : String
  verify : VerifyMode
  kind : ImageKind
  /-- Whether an image that has the name already is replaced. -/
  force : Bool
deriving DecidableEq, Repr, Inhabited

/-- The request of a configuration's download, under a name. The way of checking is read before the
kind of image. -/
def Download.request (d : Download) (name : String) : Except Error PullRequest := do
  let verify ← VerifyMode.ofName d.verify
  let kind ← ImageKind.ofName d.kind
  pure { url := d.url, name, verify, kind, force := d.force }

end Capsule
