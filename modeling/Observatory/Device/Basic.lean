import Observatory.Device.Status
import Observatory.Value.Registry
/-!
# Device back ends

The hardware behind an endpoint, as a state with five hooks. A back end that does nothing of its
own accepts every assignment and knows no command.
-/

namespace Observatory

/-- What a back end makes of a command. -/
inductive CommandOutcome where
  | ok
  | failed (code : Int32) (reason : String)
  /-- The peer should ask again later. -/
  | requeue
  | unknown
  deriving DecidableEq

/-- The hooks of a back end with state `σ`. -/
structure Device (σ : Type) where
  /-- A peer asks to change the first value to the second. A reason refuses it. -/
  setValue : Value → Value → σ → Except String Unit × σ := fun _ _ s => (.ok (), s)
  /-- Refreshes the values before all of them are sent. -/
  info : Registry → σ → Except String Unit × Registry × σ := fun r s => (.ok (), r, s)
  /-- A peer sends a command with its parameters. -/
  command : String → String → Registry → σ → CommandOutcome × Registry × σ :=
    fun _ _ r s => (.unknown, r, s)
  /-- Runs once per pass. -/
  idle : Registry → σ → Registry × σ := fun r s => (r, s)
  /-- The bits that the back end owns, under their mask. -/
  status : σ → Option (UInt32 × UInt32) := fun _ => none

/-- The back end that does nothing of its own. -/
def Device.passive : Device Unit := {}

/-- What an endpoint lends to a connection: its values and its back end. -/
structure Local (σ : Type) where
  values : Registry
  device : σ

end Observatory
