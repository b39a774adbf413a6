import Observatory.Endpoint.Basic
import Observatory.Helper.Environment
import Observatory.SerialLine.Settings
/-!
# Peers of an endpoint

How connections come and go, and what an endpoint does with them at the request of its owner.
-/

namespace Observatory

/-- A child process to be started. -/
structure HelperSpec where
  name : String
  path : String
  args : List String := []
  /-- Variables that are added to the environment; the last one of a name counts. -/
  env : List (String × String) := []
  /-- How long the child may run. -/
  timeout : Option Duration := none
  /-- Whether the child reads commands. -/
  withInput : Bool := false

namespace HelperSpec

/-- The variables that count: the last one of each name. -/
def counting : List (String × String) → List (String × String)
  | [] => []
  | (key, value) :: rest =>
    if rest.any fun later => later.1 == key then counting rest
    else (key, value) :: counting rest

/-- Whether the system cannot pass on the arguments or the environment, because the system ends
a text with the character of code zero. -/
def holdsNul (s : HelperSpec) : Bool :=
  let hasNul (text : String) := text.toList.contains '\x00'
  hasNul s.path || s.args.any hasNul ||
    (counting s.env).any fun (key, value) => hasNul key || hasNul value

end HelperSpec

/-- A child process that was started; `τ` is the type of byte streams. -/
structure StartedHelper (τ : Type) where
  pid : Pid
  /-- Carries the records of both sides. -/
  stream : τ
  /-- Carries the error messages of the child. -/
  errors : τ

namespace Endpoint

variable {τ σ ℓ η : Type}

/-! ## New connections -/

/-- Applies the settings to a connection. Kinds of peers that may be silent for ever stay so. -/
def configure (s : Settings) (c : Connection τ) : Connection τ :=
  let c := if c.kind.defaultTimeout.isSome
    then c.setTimeout ((Settings.limit? s.connectionTimeoutS).map Duration.ofSeconds) else c
  (c.setMaxParseErrors s.maxParseErrors).setRecordLimit s.maxRecordSize

/-- Takes a new connection in. A subscriber is sent the status at once. -/
def addConnection (c : Connection τ) (e : Endpoint τ σ ℓ η) : ConnId × Endpoint τ σ ℓ η :=
  let c := configure e.settings c
  let c := if isSubscriber c then c.send (.status e.status.bits) else c
  (c.id, { e with connections := e.connections.insert c })

/-- Numbers a new connection and takes it in. -/
def enter (c : ConnId → Connection τ) (e : Endpoint τ σ ℓ η) : ConnId × Endpoint τ σ ℓ η :=
  let (id, connections) := e.connections.allocate
  ({ e with connections }).addConnection (c id)

def connect (name address : String) (kind : PeerKind) (now : Instant) (e : Endpoint τ σ ℓ η) :
    ConnId × Endpoint τ σ ℓ η :=
  e.enter fun id => .connecting id kind name address now

def attach (name : String) (kind : PeerKind) (stream : τ) (now : Instant) (e : Endpoint τ σ ℓ η) :
    ConnId × Endpoint τ σ ℓ η :=
  e.enter fun id => .overStream id kind name stream now

/-! ## Children -/

/-- What a child is started with: the settings limit its time unless its own limit is given, and
on request its environment describes every peer. -/
def completeSpec (exportState : Bool) (spec : HelperSpec) (e : Endpoint τ σ ℓ η) : HelperSpec :=
  { spec with
    timeout := match spec.timeout with
      | some limit => some limit
      | none => (Settings.limit? e.settings.forkTimeoutS).map Duration.ofSeconds
    env := if exportState then spec.env ++ Helper.environment e.connections else spec.env }

def deadline (spec : HelperSpec) (now : Instant) : Except LinkError (Option Instant) :=
  match spec.timeout with
  | none => .ok none
  | some limit =>
    match Instant.after? now limit with
    | some deadline => .ok (some deadline)
    | none => .error .deadlineOverflow

/-- Takes a child in that was started, or says why it was not. -/
def adopt (spec : HelperSpec) (started : Except String (StartedHelper τ)) (now : Instant)
    (e : Endpoint τ σ ℓ η) : Except LinkError (ConnId × Endpoint τ σ ℓ η) := do
  let child ← started.mapError (.spawn spec.path)
  let helper : Helper τ := {
    -- by then the child runs, and without a deadline it is left to itself
    pid := child.pid, path := spec.path, deadline := ← deadline spec now,
    hasInput := spec.withInput, errors := some child.errors }
  return e.enter fun id =>
    { Connection.overStream id .helper spec.name child.stream now with helper := some helper }

/-! ## Serial lines -/

/-- Opens a serial line, if its settings can be used and the system opens it. -/
def openSerial (name : String) (line : SerialLine.Settings) (opened : Except LinkError τ)
    (now : Instant) (e : Endpoint τ σ ℓ η) : Except LinkError (ConnId × Endpoint τ σ ℓ η) := do
  let _ ← line.check.mapError fun fault => LinkError.io fault.message
  let stream ← opened
  return e.attach name .serial stream now

/-! ## Commands -/

def queueCommand (id : ConnId) (command : Command) (e : Endpoint τ σ ℓ η) :
    Except LinkError CommandHandle × Endpoint τ σ ℓ η :=
  let (result, connections) := e.connections.queueCommand id command
  (result, { e with connections })

def queueCommandTo (peer : String) (command : Command) (e : Endpoint τ σ ℓ η) :
    Except LinkError CommandHandle × Endpoint τ σ ℓ η :=
  let (result, connections) := e.connections.queueCommandTo peer command
  (result, { e with connections })

/-! ## What peers are told -/

/-- Changes the bits under a mask and announces a new status to the subscribers. -/
def setStatus (mask bits : UInt32) (e : Endpoint τ σ ℓ η) : Endpoint τ σ ℓ η :=
  let status := e.status.update mask bits
  if status = e.status then e
  else ({ e with status }).onSubscribers (·.send (.status status.bits))

/-- Pushes every value to every subscriber. -/
def infoAll (e : Endpoint τ σ ℓ η) : Endpoint τ σ ℓ η :=
  { e.onSubscribers (·.sendAll e.values) with values := e.values.clearDirty }

def broadcastDirty (e : Endpoint τ σ ℓ η) : Endpoint τ σ ℓ η :=
  if e.values.hasDirty then
    { e.onConnections (·.broadcastDirty e.values) with values := e.values.clearDirty }
  else e

/-- Sends a message to every subscriber, with the time it was written. -/
def broadcastMessage (sec : Int64) (usec : UInt32) (severity : Severity) (text : String)
    (e : Endpoint τ σ ℓ η) : Endpoint τ σ ℓ η :=
  e.onSubscribers (·.send (.message ⟨sec, usec, e.name, severity, text⟩))

/-! ## What peers send -/

/-- Takes bytes of a peer and delivers what they cause. -/
def receive (w : Wiring τ σ ℓ η) (id : ConnId) (now : Instant) (bytes : Bytes)
    (e : Endpoint τ σ ℓ η) : Except LinkError (Endpoint τ σ ℓ η) :=
  match e.connection? id with
  | none => .error (.unknownConnection id)
  | some c =>
    let t := Connection.receive w.device now bytes ⟨c, ⟨e.values, e.device⟩⟩
    .ok ({ e with
      connections := e.connections.put t.conn
      values := t.own.values
      device := t.own.device }.deliver w).2

/-! ## The end of connections -/

def close (w : Wiring τ σ ℓ η) (id : ConnId) (e : Endpoint τ σ ℓ η) :
    Except LinkError (Endpoint τ σ ℓ η) :=
  match e.connection? id with
  | none => .error (.unknownConnection id)
  | some c =>
    .ok ({ e with connections := e.connections.put (c.close .requested) }.deliver w).2

/-- Stops after the current pass and asks for the end of every connection. -/
def shutdown (w : Wiring τ σ ℓ η) (e : Endpoint τ σ ℓ η) : Endpoint τ σ ℓ η :=
  ({ e.onConnections (·.close .requested) with running := false }.deliver w).2

end Endpoint

end Observatory
