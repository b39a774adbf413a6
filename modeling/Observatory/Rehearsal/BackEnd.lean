import Observatory.Device.Basic
/-!
# Rehearsed back ends

A back end whose answers are written down beforehand. It keeps a record of the hooks that were
called.
-/

namespace Observatory.Rehearsal

/-- Texts to be assigned to named values. -/
abbrev Assignments := List (String × String)

/-- Assigns each text in turn; what a value refuses is passed over. -/
def assignAll (texts : Assignments) (r : Registry) : Registry :=
  texts.foldl (fun r (name, text) => match r.set name text with
    | .ok r => r
    | .error _ => r) r

/-- A hook that was called. -/
inductive HookCall where
  | setValue (name old new : String)
  | info
  | command (opcode params : String)

/-- What is done at a command. -/
structure Answer where
  assignments : Assignments := []
  outcome : CommandOutcome := .unknown

/-- A back end with its answers. -/
structure BackEnd where
  /-- Larger numbers are refused; the limit also as it is spelled. -/
  limit : Option (Float × String) := none
  /-- What a request for all values refreshes first. -/
  refreshed : Assignments := []
  /-- Why such a request fails. -/
  infoFault : Option String := none
  /-- The commands that are known. -/
  answers : List (String × Answer) := []
  /-- What each pass assigns. -/
  passes : List Assignments := []
  /-- The part of the status after each pass. -/
  statuses : List (Option (UInt32 × UInt32)) := []
  /-- How many passes there were. -/
  passed : Nat := 0
  calls : List HookCall := []

namespace BackEnd

def called (call : HookCall) (b : BackEnd) : BackEnd := { b with calls := b.calls ++ [call] }

/-- Refuses numbers above the limit. -/
def setValue (old new : Value) (b : BackEnd) : Except String Unit × BackEnd :=
  let verdict := match b.limit, new.asDouble? with
    | some (limit, spelling), some x => if limit < x then .error ("beyond " ++ spelling) else .ok ()
    | _, _ => .ok ()
  (verdict, b.called (.setValue old.name old.text new.text))

def info (r : Registry) (b : BackEnd) : Except String Unit × Registry × BackEnd :=
  let verdict := match b.infoFault with
    | some reason => .error reason
    | none => .ok ()
  (verdict, assignAll b.refreshed r, b.called .info)

def command (opcode params : String) (r : Registry) (b : BackEnd) :
    CommandOutcome × Registry × BackEnd :=
  let answer := (b.answers.lookup opcode).getD {}
  (answer.outcome, assignAll answer.assignments r, b.called (.command opcode params))

def idle (r : Registry) (b : BackEnd) : Registry × BackEnd :=
  (assignAll ((b.passes[b.passed]?).getD []) r, { b with passed := b.passed + 1 })

def device : Device BackEnd where
  setValue := setValue
  info := info
  command := command
  idle := idle
  status b := (b.statuses[b.passed - 1]?).getD none

end BackEnd

end Observatory.Rehearsal
