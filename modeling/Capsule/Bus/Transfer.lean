import Capsule.Double
import Capsule.Pull

/-!
# Transfers

The import service fetches images in the background. Each such transfer has a number, by which it is
found again in the list of those that are still going on.
-/

namespace Capsule

/-- A transfer that is going on. -/
structure Transfer where
  id : UInt32
  /-- The part that is done, or a value that says that this is not known yet. -/
  progress : Double
  kind : String
  remote : String
  localName : String
deriving DecidableEq, Repr, Inhabited

/-- A transfer that has been started. -/
structure StartedTransfer where
  id : UInt32
  /-- The transfer's object on the bus. -/
  path : String
deriving DecidableEq, Repr, Inhabited

/-- Whether a progress says anything: it is neither a not-a-number nor an infinity nor of the
largest finite magnitude. -/
def Double.isMeaningful (d : Double) : Bool := !(d.isNaN || d.isInfinite || d.isLargest)

end Capsule
