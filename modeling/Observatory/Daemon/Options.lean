import Observatory.CommandLine.Grammar
import Observatory.Settings.Reader
/-!
# Options of the focuser daemon

The daemon takes its settings from a file, or from its defaults, and what the command line says
counts more.
-/

namespace Observatory.Daemon

open CommandLine

def configSwitch : Switch := { name := "config", short := some 'c', long := "config" }

def listenSwitch : Switch := { name := "listen", short := some 'l', long := "listen" }

def nameSwitch : Switch := { name := "name", short := some 'n', long := "name" }

def grammar : Grammar := { switches := [configSwitch, listenSwitch, nameSwitch] }

structure Options where
  /-- The settings file. -/
  config : Option String := none
  listen : Option String := none
  name : Option String := none
  deriving DecidableEq

def Options.ofArguments (args : List String) : Except UsageError Options := do
  let given ← grammar.read args
  return ⟨given.value? configSwitch.name, given.value? listenSwitch.name,
    given.value? nameSwitch.name⟩

/-- Why the daemon does not start. -/
inductive StartError where
  | unreadable (reason : String)
  | invalid (fault : Settings.Fault)
  | listen (reason : String)
  deriving DecidableEq

namespace StartError

def message : StartError → String
  | unreadable reason => s!"cannot read configuration: {reason}"
  | invalid .malformed => Settings.Fault.malformed.message
  | invalid fault => s!"invalid configuration: {fault.message}"
  | listen reason => s!"i/o error: {reason}"

end StartError

/-- The settings without a file. -/
def defaults : Settings := { name := "FOC" }

/-- The settings to run with, given the text of the settings file if there is one. -/
def Options.settings (o : Options) (file : Option (Except String String)) :
    Except StartError Settings := do
  let s ← match file with
    | none => .ok defaults
    | some (.error reason) => .error (.unreadable reason)
    | some (.ok text) => (Settings.parse text).mapError .invalid
  let s := { s with listen := o.listen.orElse fun _ => s.listen, name := o.name.getD s.name }
  s.validate.mapError .invalid
  return s

/-! ## The address to listen on -/

/-- What is wrong with the form of an address, a host and a port behind the last colon. -/
def addressFault? (address : String) : Option String :=
  match (address.splitOn ":").reverse with
  | port :: _ :: _ =>
    if ((Number.readUnsigned port.toList).filter fun n => n < UInt16.size).isSome then none
    else some "invalid port value"
  | _ => some "invalid socket address"

/-- The address to listen on, or what is wrong with its form. -/
def listenAddress (s : Settings) : Except StartError String :=
  let address := s.listen.getD "127.0.0.1:6170"
  match addressFault? address with
  | some reason => .error (.listen reason)
  | none => .ok address

end Observatory.Daemon
