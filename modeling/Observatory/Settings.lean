import Observatory.Text.Blank
/-!
# Settings of an endpoint

Every setting has a default. What a file or a command line sets is checked before it is used.
-/

namespace Observatory

structure Settings where
  name : String := "obsbus"
  /-- The address to accept peers on. -/
  listen : Option String := none
  /-- The longest wait of one pass, in milliseconds. -/
  idleTimeoutMs : Nat := 1000
  /-- The silence after which a peer is dropped, in seconds; zero is never. -/
  connectionTimeoutS : Nat := 300
  maxParseErrors : Nat := 10
  maxRecordSize : Nat := 65536
  /-- How long a helper process may run, in seconds; zero is for ever. -/
  forkTimeoutS : Nat := 0
  logLevel : String := "info"
  deriving DecidableEq

namespace Settings

inductive Fault where
  /-- The text is no settings file. -/
  | malformed
  | nameNotToken (name : String)
  | idleTimeoutZero
  | recordSizeTooSmall (size : Nat)
  | unknownLogLevel (level : String)
  deriving DecidableEq

namespace Fault

def message : Fault → String
  | malformed => "malformed configuration"
  | nameNotToken name => s!"name '{name}' must be a single non-empty token"
  | idleTimeoutZero => "idle_timeout_ms must be positive"
  | recordSizeTooSmall size => s!"max_record_size {size} is too small"
  | unknownLogLevel level => s!"unknown log level '{level}'"

end Fault

/-- The levels of the log, from the most to the least talkative. -/
def logLevels : List String := ["trace", "debug", "info", "warn", "error"]

/-- Checks the settings in their order; the first fault is reported. -/
def validate (s : Settings) : Except Fault Unit :=
  if s.name.isEmpty || s.name.toList.any Text.isBlank then .error (.nameNotToken s.name)
  else if s.idleTimeoutMs = 0 then .error .idleTimeoutZero
  else if s.maxRecordSize < 64 then .error (.recordSizeTooSmall s.maxRecordSize)
  else if !logLevels.contains (String.ofList (s.logLevel.toList.map Char.toLower)) then
    .error (.unknownLogLevel s.logLevel)
  else .ok ()

/-- Zero seconds stand for no limit at all. -/
def limit? (seconds : Nat) : Option Nat := if 0 < seconds then some seconds else none

end Settings

end Observatory
