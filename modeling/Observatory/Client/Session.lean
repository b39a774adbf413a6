import Observatory.Client.Request
import Observatory.Endpoint.Pass
/-!
# Sessions of the client

A session is an endpoint with one connection. It sends one command, waits for the outcome or for
the end of its patience, and prints what came of it; a watching session then goes on until the
connection is gone.
-/

namespace Observatory

/-- The name of a cause in messages for developers. -/
def ProtocolError.describe : ProtocolError → String
  | unexpectedReply => "UnexpectedReply"
  | tooManyParseErrors count => s!"TooManyParseErrors({count})"

def CloseReason.describe : CloseReason → String
  | requested => "Requested"
  | peerClosed => "PeerClosed"
  | timeout => "Timeout"
  | io reason => s!"Io({Text.Literal.quote reason})"
  | protocol e => s!"Protocol({e.describe})"
  | childEnded => "ChildEnded"

namespace Client

/-! ## What is printed -/

/-- A line for the user. -/
inductive Print where
  | out (line : String)
  | error (line : String)
  deriving DecidableEq

/-- A text filled up with spaces on its right. -/
def padRight (width : Nat) (text : String) : String :=
  String.ofList (text.toList ++ List.replicate (width - text.length) ' ')

def changeLine (name text : String) : String := padRight 24 name ++ " " ++ text

def valueLine (name : String) (r : Replica) : String :=
  "  " ++ (if r.value.flags.writable then "W" else " ") ++ " " ++ padRight 24 name ++ " " ++
    padRight 10 r.value.kind.name ++ " " ++ r.value.display

def patience (d : Duration) : String :=
  if d = 0 then "0ns" else s!"{d / 1000000000}s"

def failureLine (c : Completion) (reason : String) : String :=
  s!"❌ {c.line} failed ({c.code.toInt}): {reason}"

def watch {τ : Type} (_ : Unit) : Event → Reaction τ Print Unit
  | .valueChanged conn name =>
    .look fun t =>
      match (t.get? conn).bind (·.replica? name) with
      | some r => .note (.out (changeLine name r.value.display)) (.done ())
      | none => .done ()
  | .statusChanged _ _ new => .note (.out (changeLine "status" new.text)) (.done ())
  | .message _ m => .note (.out s!"💬 {m.origin}: {m.text}") (.done ())
  | .connectionClosed _ _ reason =>
    .note (.error s!"🔌 Connection closed: {reason.describe}") (.done ())
  | _ => .done ()

/-! ## Sessions -/

inductive SessionError where
  | emptyCommand
  | commandTimeout
  | connectionLost
  | link (e : LinkError)
  deriving DecidableEq

namespace SessionError

def message : SessionError → String
  | emptyCommand => "empty command"
  | commandTimeout => "command timeout"
  | connectionLost => "device connection lost"
  | link e => e.message

end SessionError

/-- How far a session has come. -/
inductive Phase where
  | waiting (deadline : Instant)
  | watching
  | ended (result : Except SessionError Unit)

/-- A session over streams `τ`. -/
structure Session (τ : Type) where
  request : Request
  endpoint : Endpoint τ Unit Unit Print
  phase : Phase
  printed : List Print := []
  /-- Streams that are no longer used. -/
  released : List (ConnId × τ) := []

namespace Session

variable {τ : Type}

def peer : String := "device"

def settings : Settings := { name := "obsbus", idleTimeoutMs := 100 }

/-- The parts that the client's endpoint is built from. -/
def wiring (T : Transport τ) : Wiring τ Unit Unit Print := ⟨T, Device.passive, watch⟩

def print (p : Print) (s : Session τ) : Session τ := { s with printed := s.printed ++ [p] }

def fail (e : SessionError) (s : Session τ) : Session τ := { s with phase := .ended (.error e) }

/-- Prints what a watching user is shown. -/
def flush (s : Session τ) : Session τ × List Completion :=
  let (box, endpoint) := s.endpoint.takeOutbox
  ({ s with
    endpoint
    printed := s.printed ++ box.journal
    released := s.released ++ box.released }, box.notices)

/-- Ends well: closes the connection. -/
def finish (T : Transport τ) (s : Session τ) : Session τ :=
  { { s with endpoint := s.endpoint.shutdown (wiring T) }.flush.1 with phase := .ended (.ok ()) }

/-- The connection to the device, as long as it is not closed. -/
def device? (s : Session τ) : Option (Connection τ) := s.endpoint.connections.byName? peer

/-! ## The command -/

def commandFor : Task → Option Command
  | .set name op tokens => some { opcode := "X", params := name :: op :: tokens }
  | .command line => Command.ofLine? line
  | _ => some { opcode := "info" }

/-- Sends the command of the task and starts to wait. -/
def send (now : Instant) (s : Session τ) : Session τ :=
  match commandFor s.request.task with
  | none => s.fail .emptyCommand
  | some command =>
    let (result, endpoint) := s.endpoint.queueCommandTo peer { command with tracked := true }
    let s := { s with endpoint }
    match result, Instant.after? now s.request.timeout with
    | .error e, _ => s.fail (.link e)
    | .ok _, none => s.fail (.link .deadlineOverflow)
    | .ok _, some deadline => { s with phase := .waiting deadline }

def start (request : Request) (now : Instant) : Session τ :=
  let endpoint : Endpoint τ Unit Unit Print :=
    { settings, device := (), listeners := if request.task = .watch then [()] else [] }
  let s : Session τ :=
    { request, phase := .watching
      endpoint := (endpoint.connect peer request.address .device now).2 }
  (if request.verbose then s.print (.out s!"Connecting to {request.address}") else s).send now

/-- Prints what a successful command led to. -/
def succeed (T : Transport τ) (s : Session τ) : Session τ :=
  match s.request.task with
  | .values =>
    match s.device? with
    | none => s.fail .connectionLost
    | some c =>
      let lines := c.replicas.map fun (name, r) => Print.out (valueLine name r)
      ({ s with printed := s.printed ++ Print.out s!"📋 Values of {peer}" :: lines }).finish T
  | .get name =>
    match s.device?.bind (·.replica? name) with
    | some r => (s.print (.out s!"{name} = {r.value.display}")).finish T
    | none => (s.print (.error s!"❌ Unknown value {name}")).finish T
  | .set name op tokens =>
    (s.print (.out (s!"✅ {name} {op} " ++ " ".intercalate tokens))).finish T
  | .command _ => (s.print (.out "✅ Command completed")).finish T
  | .watch =>
    { s.print (.out "👀 Watching value changes (Press Ctrl+C to stop)...") with phase := .watching }

def conclude (T : Transport τ) (c : Completion) (s : Session τ) : Session τ :=
  match c.outcome with
  | .ok => s.succeed T
  | .failed reason => (s.print (.error (failureLine c reason))).finish T

/-! ## Passes -/

/-- One pass over the connection. Gives the commands that are done. -/
def pass (T : Transport τ) (p : Pass τ) (s : Session τ) : Session τ × List Completion :=
  { s with endpoint := s.endpoint.tick (wiring T) p }.flush

def advance (T : Transport τ) (p : Pass τ) (s : Session τ) : Session τ :=
  match s.phase with
  | .ended _ => s
  | .waiting deadline =>
    if p.now < deadline then
      let (s, done) := s.pass T p
      match done.getLast? with
      | some completion => s.conclude T completion
      | none => s
    else
      (s.print (.error s!"⏰ No reply within {patience s.request.timeout}")).fail .commandTimeout
  | .watching => if s.device?.isSome then (s.pass T p).1 else s.finish T

/-- A whole session over the passes that are given. -/
def play (T : Transport τ) (request : Request) (passes : List (Pass τ)) : Session τ :=
  passes.foldl (fun s p => s.advance T p) (start request 0)

def failure? (s : Session τ) : Option SessionError :=
  match s.phase with
  | .ended (.error e) => some e
  | _ => none

/-! ## What was shown -/

def output (s : Session τ) : List String :=
  s.printed.filterMap fun
    | .out line => some line
    | .error _ => none

def complaints (s : Session τ) : List String :=
  s.printed.filterMap fun
    | .out _ => none
    | .error line => some line

end Session

end Client

end Observatory
