import Observatory.Device.Basic
import Observatory.Number.Rounded
/-!
# A simulated focuser

A back end with four values. Clients set the target; in every pass the position moves a few steps
towards it, until it is there.
-/

namespace Observatory

/-- The state of the back end. -/
structure Focuser where
  moving : Bool := false
  deriving DecidableEq

namespace Focuser

/-! ## Its values -/

def positionName : String := "FOC_POS"

def targetName : String := "FOC_TAR"

def modeName : String := "FOC_MODE"

def windowName : String := "WIN"

def modes : List String := ["manual", "auto", "temperature"]

def values : List Value :=
  [{ name := positionName, description := "focuser position", contents := .scalar (.integer 0) },
    Value.writable
      { name := targetName, description := "focuser target", contents := .scalar (.double 0.0) },
    Value.writable
      { name := modeName, description := "focusing mode",
        contents := .selection { symbols := modes } },
    Value.writable (.new windowName "readout window" (.rectangle .integer))]

/-! ## Its hooks -/

/-- The steps covered in one pass. -/
def stepSize : Int := 25

/-- Both ends of the travel lie so far from zero. -/
def travel : Nat := 5000

def isOutside (target : Float) : Bool := target < -5000.0 || 5000.0 < target

/-- The target has to lie within the travel. -/
def setValue (old new : Value) (s : Focuser) : Except String Unit × Focuser :=
  let target := new.asDouble?.getD 0.0
  if old.name = targetName && isOutside target then
    (.error s!"target {String.ofList (Number.plainDouble target)} outside travel -5000..5000", s)
  else (.ok (), s)

def assignDouble (x : Float) (v : Value) : Except OperationError Value :=
  v.apply .assign (.scalar (.double x))

def hardwareFault : Int32 := -1

/-- Goes to the middle of the travel, or stays where it is. -/
def command (opcode _params : String) (r : Registry) (s : Focuser) :
    CommandOutcome × Registry × Focuser :=
  match opcode with
  | "home" =>
    match r.get? targetName with
    | none => (.unknown, r, s)
    | some v =>
      match assignDouble 0.0 v with
      | .ok v => (.ok, r.put targetName v, s)
      | .error e => (.failed hardwareFault e.message, r, s)
  | "stop" =>
    let position := ((r.get? positionName).bind Value.asDouble?).getD 0.0
    match r.update targetName (assignDouble position) with
    | .ok r => (.ok, r, s)
    | .error _ => (.ok, r, s)
  | _ => (.unknown, r, s)

/-- The place to go to, in whole steps. -/
def target? (r : Registry) : Option Int32 :=
  ((r.get? targetName).bind Value.asDouble?).map Number.nearestInt32

/-- The place after one pass on the way from one place to another. -/
def advance (current target : Int32) : Int32 :=
  Int32.ofInt (current.toInt + max (-stepSize) (min stepSize (target.toInt - current.toInt)))

/-- Moves on towards the target. -/
def idle (r : Registry) (s : Focuser) : Registry × Focuser :=
  match target? r, r.get? positionName with
  | some target, some v =>
    let current := (v.asInt?.getD 0).toInt32
    if current = target then (r, { moving := false })
    else
      match v.apply .assign (.scalar (.integer (advance current target))) with
      | .ok v => (r.put positionName v, { moving := true })
      | .error _ => (r, { moving := true })
  | _, _ => (r, s)

/-- The back end of a focuser. It tells whether it is on its way. -/
def device : Device Focuser where
  setValue := setValue
  command := command
  idle := idle
  status s := some (DeviceStatus.moveMask, if s.moving then DeviceStatus.moving else 0)

end Focuser

end Observatory
