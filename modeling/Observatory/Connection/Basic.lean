import Observatory.Connection.Transport
import Observatory.Device.Basic
import Observatory.Event
import Observatory.Helper.Basic
/-!
# Connections

One peer: its line framing, its command queue, the copies of its values and the events it gave
rise to. A connection never waits. What others are to learn of it leaves as events in its
outbox; what it wants to send collects in its output.
-/

namespace Observatory

/-- What kind of peer a connection leads to. -/
inductive PeerKind where
  | client
  | device
  | central
  | helper
  | serial
  deriving Repr, DecidableEq

namespace PeerKind

def all : List PeerKind := [client, device, central, helper, serial]

/-- Peers that are sent our dirty values. -/
def subscribes : PeerKind → Bool
  | client => true
  | central => true
  | _ => false

/-- The silence after which a new connection is dropped: 300 seconds, or never. -/
def defaultTimeout : PeerKind → Option Duration
  | helper => none
  | serial => none
  | _ => some (Duration.ofSeconds 300)

def name : PeerKind → String
  | client => "Client"
  | device => "Device"
  | central => "Centrald"
  | helper => "Fork"
  | serial => "Serial"

end PeerKind

/-- How far a connection has come. -/
inductive ConnState where
  | connecting
  | established
  /-- Closed as soon as its output is flushed. -/
  | draining
  | closed
  deriving Repr, DecidableEq

namespace ConnState

def name : ConnState → String
  | connecting => "Connecting"
  | established => "Established"
  | draining => "Draining"
  | closed => "Closed"

end ConnState

/-- What a connection runs over. -/
inductive Link (τ : Type) where
  /-- Nothing; output collects until it is taken. -/
  | detached
  /-- A connect that has not come to an end. -/
  | connecting (address : String)
  | stream (s : τ)

namespace Link

variable {τ : Type}

def isStream : Link τ → Bool
  | stream _ => true
  | _ => false

def isDetached : Link τ → Bool
  | detached => true
  | _ => false

def map (f : τ → τ) : Link τ → Link τ
  | stream s => stream (f s)
  | link => link

/-- The stream in use, if there is one. -/
def stream? : Link τ → Option τ
  | stream s => some s
  | _ => none

end Link

/-- The longest record of a new connection, in bytes. -/
def defaultRecordLimit : Nat := 65536

/-- One peer; `τ` is the type of byte streams. -/
structure Connection (τ : Type) where
  id : ConnId
  name : String
  kind : PeerKind
  state : ConnState
  link : Link τ
  input : Framing := { limit := defaultRecordLimit }
  output : Bytes := []
  queue : CommandQueue
  /-- The copies of the peer's values, in the order of their names. -/
  replicas : List (String × Replica) := []
  status : DeviceStatus := {}
  blocking : UInt32 := 0
  timeout : Option Duration
  lastActivity : Instant
  /-- When the peer was last asked for a sign of life since it was heard. -/
  lastKeepalive : Option Instant := none
  /-- How many malformed records came in a row. -/
  parseErrors : Nat := 0
  maxParseErrors : Nat := 10
  /-- The names of our values that were announced to the peer. -/
  announced : List String := []
  /-- What happened and was not collected yet. -/
  events : List Event := []
  readClosed : Bool := false
  helper : Option (Helper τ) := none
  /-- Streams that are no longer used and can be given back to the system. -/
  released : List τ := []

/-- Why a request to an endpoint or a connection is refused. -/
inductive LinkError where
  | io (reason : String)
  | system (reason : String)
  | spawn (path reason : String)
  | unknownConnection (conn : ConnId)
  | unknownPeer (name : String)
  | queueFull (conn : ConnId)
  | connectionClosed (conn : ConnId)
  | noCommandChannel (conn : ConnId)
  /-- The clock cannot count to the end of a time limit. -/
  | deadlineOverflow
  deriving Repr, DecidableEq

namespace LinkError

def message : LinkError → String
  | io reason => s!"i/o error: {reason}"
  | system reason => s!"system call failed: {reason}"
  | spawn path reason => s!"cannot execute {path}: {reason}"
  | unknownConnection conn => s!"unknown connection #{conn}"
  | unknownPeer name => s!"no connection named '{name}'"
  | queueFull conn => s!"command queue of connection #{conn} is full"
  | connectionClosed conn => s!"connection #{conn} is closed"
  | noCommandChannel conn => s!"connection #{conn} has no way to send commands"
  | deadlineOverflow => "overflow when adding duration to instant"

end LinkError

namespace Connection

variable {τ : Type}

def new (id : ConnId) (kind : PeerKind) (name : String) (state : ConnState) (link : Link τ)
    (now : Instant) : Connection τ :=
  { id, name, kind, state, link, queue := { connection := id }, timeout := kind.defaultTimeout,
    lastActivity := now }

/-- An established connection over nothing. -/
def inMemory (id : ConnId) (kind : PeerKind) (name : String) (now : Instant) : Connection τ :=
  new id kind name .established .detached now

/-- An established connection over a stream. -/
def overStream (id : ConnId) (kind : PeerKind) (name : String) (stream : τ) (now : Instant) :
    Connection τ :=
  new id kind name .established (.stream stream) now

/-- A connection that waits for its connect to come to an end. -/
def connecting (id : ConnId) (kind : PeerKind) (name address : String) (now : Instant) :
    Connection τ :=
  new id kind name .connecting (.connecting address) now

/-! ## Views -/

def isEstablished (c : Connection τ) : Bool := c.state == .established

def isClosed (c : Connection τ) : Bool := c.state == .closed

def wantsRead (c : Connection τ) : Bool := c.isEstablished && !c.readClosed

def wantsWrite (c : Connection τ) : Bool := !c.output.isEmpty

def hasEvents (c : Connection τ) : Bool := !c.events.isEmpty

def replica? (name : String) (c : Connection τ) : Option Replica := c.replicas.lookup name

def describe (c : Connection τ) : String :=
  Text.Literal.fields "Connection"
    [("id", s!"ConnId({c.id})"), ("name", Text.Literal.quote c.name), ("kind", c.kind.name),
      ("state", c.state.name), ("queued", s!"{c.queue.size}"),
      ("mirrors", s!"{c.replicas.length}")] true

/-! ## Settings -/

/-- Without a timeout there are neither keepalives nor a limit to silence. -/
def setTimeout (timeout : Option Duration) (c : Connection τ) : Connection τ := { c with timeout }

def setMaxParseErrors (max : Nat) (c : Connection τ) : Connection τ :=
  { c with maxParseErrors := max }

/-- A new limit starts with an empty buffer. -/
def setRecordLimit (limit : Nat) (c : Connection τ) : Connection τ := { c with input := { limit } }

/-! ## Outboxes -/

def emit (e : Event) (c : Connection τ) : Connection τ := { c with events := c.events ++ [e] }

def takeOutput (c : Connection τ) : Bytes × Connection τ := (c.output, { c with output := [] })

def takeEvents (c : Connection τ) : List Event × Connection τ := (c.events, { c with events := [] })

/-! ## Sending -/

def sendLine (line : List Char) (c : Connection τ) : Connection τ :=
  { c with output := c.output ++ (Text.Utf8.encode (String.ofList line) ++ [lineFeed]) }

def send (r : Record) (c : Connection τ) : Connection τ := c.sendLine r.encode

def sendReply (code : Int32) (reason : String) (c : Connection τ) : Connection τ :=
  c.send (.reply code reason)

/-- Pushes a value. The first time the peer sees it, it is announced first. -/
def sendValue (v : Value) (c : Connection τ) : Connection τ :=
  let c := if c.announced.contains v.name then c
    else v.metaRecords.foldl (fun c r => c.send r) { c with announced := c.announced ++ [v.name] }
  c.send v.record

def sendAll (values : Registry) (c : Connection τ) : Connection τ :=
  values.values.foldl (fun c v => c.sendValue v) c

/-- Pushes the dirty values to a peer that subscribed to them. -/
def broadcastDirty (values : Registry) (c : Connection τ) : Connection τ :=
  if c.kind.subscribes && c.isEstablished then
    values.dirty.foldl (fun c v => c.sendValue v) c
  else c

/-! ## Commands -/

/-- Sends the next command, if the link is up and none is in flight. -/
def pump (c : Connection τ) : Connection τ :=
  if c.isEstablished then
    let (started, queue) := c.queue.startNext
    let c := { c with queue }
    match started with
    | some queued => c.sendLine queued.command.encode
    | none => c
  else c

/-- Why the connection takes no commands, if it takes none. -/
def refusal? (c : Connection τ) : Option LinkError :=
  if c.isClosed then some (.connectionClosed c.id)
  else match c.helper with
    | some h => if h.hasInput then none else some (.noCommandChannel c.id)
    | none => none

/-- Takes a command into the queue, urgent ones in front. -/
def queueCommand (urgent : Bool) (command : Command) (c : Connection τ) :
    Except LinkError CommandHandle × Connection τ :=
  match c.refusal? with
  | some e => (.error e, c)
  | none =>
    let (handle, queue) := c.queue.insert urgent command
    let c := { c with queue }
    match handle with
    | none => (.error (.queueFull c.id), c)
    | some handle => (.ok handle, c.pump)

/-! ## Closing -/

/-- What the commands of a lost connection are told. -/
def connectionLost : String := "connection lost"

/-- Closes for good: every command that is not done fails, and then the end is announced. -/
def finishClose (reason : CloseReason) (c : Connection τ) : Connection τ :=
  let (completions, queue) := c.queue.failAll connectionLost (-4)
  { c with
    state := .closed
    link := .detached
    released := c.released ++ c.link.stream?.toList
    queue
    events := c.events ++ completions.map Event.commandFailed ++
      [.connectionClosed c.id c.name reason] }

/-- Asks for the end. Output that a stream can still take is flushed first. -/
def close (reason : CloseReason) (c : Connection τ) : Connection τ :=
  match c.state with
  | .closed => c
  | .draining => if reason = .requested then c else c.finishClose reason
  | _ =>
    if reason = .requested && c.wantsWrite && c.link.isStream then { c with state := .draining }
    else c.finishClose reason

end Connection

end Observatory
