import Observatory.Bus
/-!
# Observation scripts

Drives one device through a list of command lines per observation target. Each line is sent
after the one before it succeeded. A failed command ends the script; a target that was set in the
meantime is observed next.
-/

namespace Observatory

/-- The state of the scripts for one device. -/
structure ScriptRunner where
  device : String
  /-- The lines for a target without a script of its own. -/
  default : List String := []
  scripts : List (UInt32 × List String) := []
  current : Option UInt32 := none
  next : Option UInt32 := none
  /-- The lines of the current script that were not sent yet. -/
  pending : List String := []
  running : Option CommandHandle := none

namespace ScriptRunner

variable {τ η : Type}

/-- Adds a script for a target; the last one added counts. -/
def addScript (target : UInt32) (lines : List String) (r : ScriptRunner) : ScriptRunner :=
  { r with scripts := (target, lines) :: r.scripts }

def linesFor (target : UInt32) (r : ScriptRunner) : List String :=
  (r.scripts.lookup target).getD r.default

/-- Ends the current script and asks for the next target. -/
def finish (r : ScriptRunner) : Reaction τ η ScriptRunner :=
  let r := { r with pending := [], running := none }
  match r.current with
  | none => .done r
  | some target =>
    .post (.scriptEnded target) (match r.next with
      | none => .done { r with current := none }
      | some next => .post (.observe next) (.done { r with current := none, next := none }))

/-- Sends the next of the lines that is a command, or ends the script. -/
def sendFirst (r : ScriptRunner) : List String → Reaction τ η ScriptRunner
  | [] => finish r
  | line :: rest =>
    match Command.ofLine? line with
    | none => sendFirst r rest
    | some command =>
      .queueTo r.device { command with origin := some "script" } fun result =>
        match result with
        | .ok handle => .done { r with pending := rest, running := some handle }
        | .error _ => finish r

def start (target : UInt32) (r : ScriptRunner) : Reaction τ η ScriptRunner :=
  let r := { r with
    current := some target
    -- a start that was asked for has come now
    next := if r.next = some target then none else r.next }
  .post (.scriptStarted target) (sendFirst r (r.linesFor target))

def react (r : ScriptRunner) : Event → Reaction τ η ScriptRunner
  | .killAll => .done { r with current := none, next := none, pending := [], running := none }
  | .setTarget target => .done { r with next := some target }
  | .observe target =>
    -- a script that runs is not broken off
    if r.current.isNone then r.start target else .done { r with next := some target }
  | .commandOk completion =>
    if r.running = some completion.handle then sendFirst { r with running := none } r.pending
    else .done r
  | .commandFailed completion =>
    if r.running = some completion.handle then finish r else .done r
  | _ => .done r

end ScriptRunner

end Observatory
