import Observatory.Connection.Basic
import Observatory.Connection.Wire
import Observatory.Rehearsal.Paths
/-!
# Rehearsed serial lines

The far end of a serial line, and what happens when its near end is opened.
-/

namespace Observatory.Rehearsal

def openLine (path : String) : Except LinkError Wire :=
  match placeOf path with
  | .terminal => .ok {}
  | .missing => .error (.io "No such file or directory (os error 2)")
  | .beyondFile => .error (.io "Not a directory (os error 20)")
  | .directory => .error (.io "Is a directory (os error 21)")
  | .plainFile | .program _ => .error (.system "ENOTTY: Inappropriate ioctl for device")

/-- What the far end of a serial line sends comes in one piece, and the reading behind it finds
nothing, which looks like the end of the stream. -/
def burst (bytes : Bytes) (wire : Wire) : Wire := { wire.feed bytes with ended := true }

end Observatory.Rehearsal
