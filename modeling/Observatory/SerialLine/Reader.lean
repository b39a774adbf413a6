import Observatory.Json
import Observatory.SerialLine.Settings
/-!
# Settings files of a serial line
-/

namespace Observatory.SerialLine

namespace Parity

def all : List Parity := [none, odd, even]

def word : Parity → String
  | none => "none"
  | odd => "odd"
  | even => "even"

/-- A parity is its word, or an object with the word as its only name and no value. -/
def ofJson? (j : Json) : Option Parity :=
  match j with
  | .string (some text) => all.find? fun p => p.word == text
  | .object [(some text, .null)] => all.find? fun p => p.word == text
  | _ => Option.none

end Parity

namespace Settings

def fieldNames : List String := ["path", "baud", "data_bits", "parity"]

/-- Takes over one setting, if its value is of the right type. -/
def setField (s : Settings) (field : String × Json) : Option Settings :=
  let (name, value) := field
  match name with
  | "path" => value.asString?.map fun path => { s with path }
  | "baud" => (value.asNat? UInt32.size).map fun baud => { s with baud }
  | "data_bits" => (value.asNat? UInt8.size).map fun dataBits => { s with dataBits }
  | "parity" => (Parity.ofJson? value).map fun parity => { s with parity }
  | _ => some s

/-- Reads settings. The path has no default. -/
def ofJson? (text : String) : Option Settings := do
  let fields ← (← Json.parse? text).record? fieldNames
  if fields.any fun (name, _) => name == "path" then fields.foldlM setField { path := "" }
  else none

end Settings

end Observatory.SerialLine
