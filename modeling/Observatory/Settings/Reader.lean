import Observatory.Json
import Observatory.Settings
/-!
# Settings files

Every setting has a default, so a settings file only lists what it changes.
-/

namespace Observatory.Settings

def fieldNames : List String :=
  ["name", "listen", "idle_timeout_ms", "connection_timeout_s", "max_parse_errors",
    "max_record_size", "fork_timeout_s", "log_level"]

/-- Takes over one setting, if its value is of the right type. -/
def setField (s : Settings) (field : String × Json) : Option Settings :=
  let (name, value) := field
  match name with
  | "name" => value.asString?.map fun name => { s with name }
  | "listen" =>
    match value with
    | .null => some { s with listen := none }
    | value => value.asString?.map fun address => { s with listen := some address }
  | "idle_timeout_ms" => (value.asNat? UInt64.size).map fun n => { s with idleTimeoutMs := n }
  | "connection_timeout_s" =>
    (value.asNat? UInt64.size).map fun n => { s with connectionTimeoutS := n }
  | "max_parse_errors" => (value.asNat? UInt32.size).map fun n => { s with maxParseErrors := n }
  | "max_record_size" => (value.asNat? UInt64.size).map fun n => { s with maxRecordSize := n }
  | "fork_timeout_s" => (value.asNat? UInt64.size).map fun n => { s with forkTimeoutS := n }
  | "log_level" => value.asString?.map fun logLevel => { s with logLevel }
  | _ => some s

def ofJson? (text : String) : Option Settings := do
  let fields ← (← Json.parse? text).record? fieldNames
  fields.foldlM setField {}

def parse (text : String) : Except Fault Settings :=
  match ofJson? text with
  | none => .error .malformed
  | some s => do
    s.validate
    return s

end Observatory.Settings
