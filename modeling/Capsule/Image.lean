import Capsule.Bus.Call
import Capsule.Bus.Descriptor
import Capsule.Config

/-!
# Finding images

The image of a configuration is a path, or the name of an image that the system knows. What is there
in the file system comes first: `Image.onDisk` takes the reference as a path, from the working
directory unless it is absolute. Only where nothing is there the bus is asked for an image with that
name, and `Image.ofAnswer` makes a path of its answer. A refusal of any kind means that there is no
such image.

The path of the working directory is asked for before anything else, so that nothing is found
without it: no path that is absolute, and no image that the bus knows.

`Config.resolve` keeps the path that was found in the configuration, which it leaves as it is where
none was found.
-/

namespace Capsule

namespace Image

/-- The path of a reference that leads to something, taken from a directory. -/
def onDiskFrom? (host : Host) (base reference : String) : Option String :=
  let path := Path.join base reference
  if host.files.leads host.directory path then some path else none

/-- The path of a reference that leads to something, taken from the working directory. -/
def onDisk (host : Host) (reference : String) : Except Error (Option String) :=
  match host.directoryPath with
  | .error problem => .error (.file "." problem)
  | .ok base => .ok (onDiskFrom? host base reference)

/-- The path of an image that the bus was asked for. -/
def ofAnswer (reference : String) : Except Error PropertyBag → Except Error String
  | .error _ => .error (.missing .image reference)
  | .ok bag => (ImageDescriptor.ofBag bag).map (·.path)

variable {σ : Type}

/-- The path of an image, taken from a directory or from the bus. -/
def find (host : Host) (bus : Bus σ) (base reference : String) (s : σ) : Answer String × σ :=
  match onDiskFrom? host base reference with
  | some path => (.after 0 (.ok path), s)
  | none =>
    let (a, s) := bus.describeImage reference s
    (a.map (ofAnswer reference), s)

/-- The path of an image, taken from the working directory or from the bus. -/
def resolve (host : Host) (bus : Bus σ) (reference : String) (s : σ) : Answer String × σ :=
  match host.directoryPath with
  | .error problem => (.after 0 (.error (.file "." problem)), s)
  | .ok base => find host bus base reference s

end Image

/-- Finds the image of a configuration. -/
def Config.resolve {σ : Type} (c : Config) (host : Host) (bus : Bus σ) (s : σ) :
    Config × Answer String × σ :=
  if c.image.isEmpty then (c, .after 0 (.error .noImage), s)
  else
    let (a, s) := Image.resolve host bus c.image s
    match a with
    | .after _ (.ok path) => ({ c with imagePath := some path }, a, s)
    | _ => (c, a, s)

end Capsule
