import Observatory.Connection.Basic
/-!
# Handling of records

What a connection does with the bytes of its peer. Every complete line is handled before the
next one. A malformed line is dropped; too many in a row close the connection.
-/

namespace Observatory

/-- A connection together with what the endpoint lends to it. -/
structure Turn (τ σ : Type) where
  conn : Connection τ
  own : Local σ

namespace Turn

variable {τ σ : Type}

def onConn (f : Connection τ → Connection τ) (t : Turn τ σ) : Turn τ σ :=
  { t with conn := f t.conn }

def reply (code : Int32) (reason : String) (t : Turn τ σ) : Turn τ σ :=
  t.onConn (Connection.sendReply code reason)

end Turn

namespace Connection

variable {τ σ : Type}

/-! ## Copies of the peer's values -/

/-- Files a copy under its name, in the order of the names. -/
def insertReplica (name : String) (r : Replica) : List (String × Replica) → List (String × Replica)
  | [] => [(name, r)]
  | (other, s) :: rest =>
    if name = other then (name, r) :: rest
    else if name < other then (name, r) :: (other, s) :: rest
    else (other, s) :: insertReplica name r rest

def putReplica (name : String) (r : Replica) (c : Connection τ) : Connection τ :=
  { c with replicas := insertReplica name r c.replicas }

/-- Takes over a pushed text. A value that was not announced is passed over. -/
def replicate (name text : String) (c : Connection τ) : Connection τ × Option ParseError :=
  match c.replica? name with
  | none => (c, none)
  | some r =>
    match r.receive text with
    | .ok r => ((c.putReplica name r).emit (.valueChanged c.id name), none)
    | .error e => (c, some e)

/-- Starts a new copy of an announced value. -/
def announce (code : UInt32) (name description : String) (c : Connection τ) :
    Connection τ × Option ParseError :=
  match Replica.announce code name description with
  | .ok r => (c.putReplica name r, none)
  | .error e => (c, some e)

def announceSymbol (name symbol : String) (c : Connection τ) : Connection τ :=
  match c.replica? name with
  | none => c
  | some r => c.putReplica name (r.addSymbol symbol)

/-! ## Records without an answer -/

def receiveStatus (bits : UInt32) (c : Connection τ) : Connection τ :=
  let new : DeviceStatus := ⟨bits⟩
  if c.status = new then c
  else ({ c with status := new }).emit (.statusChanged c.id c.status new)

/-- A peer that asks for a sign of life gets one. -/
def receiveTechnical (text : String) (c : Connection τ) : Connection τ :=
  if text = "ready" then c.send (.technical "OK") else c

/-- The code that says a command was queued and its reply will follow. -/
def codeQueued : Int32 := 1

/-- The code that asks to send the command again later. -/
def codeRequeue : Int32 := -5

/-- Takes the reply to the command in flight. -/
def receiveReply (code : Int32) (reason : String) (c : Connection τ) : Connection τ :=
  if c.queue.inFlight.isNone then c.finishClose (.protocol .unexpectedReply)
  -- the command stays in flight: the reply that counts is still to come
  else if code = codeQueued then c
  else if code = codeRequeue then { c with queue := c.queue.requeue.2 }
  else
    let outcome : Outcome := if 0 ≤ code then .ok else .failed reason
    let (completion, queue) := c.queue.complete outcome code
    let c := { c with queue }
    let c := match completion with
      | some completion => c.emit completion.event
      | none => c
    c.pump

/-! ## Requests -/

/-- A request to change one of our values. It is answered in any case. -/
def receiveSet (dev : Device σ) (name : String) (op : Operator) (text : String) (t : Turn τ σ) :
    Turn τ σ × Option ParseError :=
  let refuse (e : OperationError) : Turn τ σ := t.reply (-3) e.message
  match t.own.values.get? name with
  | none => (refuse (.unknownValue name), none)
  | some current =>
    if !current.flags.writable then (refuse (.notWritable name), none)
    else match current.applyText op text with
      | .error (.parse e) => (refuse (.parse e), some e)
      | .error e => (refuse e, none)
      | .ok updated =>
        let (verdict, device) := dev.setValue current updated t.own.device
        let t := { t with own := { t.own with device } }
        match verdict with
        | .error reason => (t.reply (-1) reason, none)
        | .ok () =>
          -- a value that is set is published, also where nothing about it changed
          let values := t.own.values.put name updated.markDirty
          let t := ({ t with own := { t.own with values } }).reply 0 "OK"
          (t.onConn (·.emit (.valueSet t.conn.id name)), none)

def receiveInfo (dev : Device σ) (t : Turn τ σ) : Turn τ σ :=
  let (verdict, values, device) := dev.info t.own.values t.own.device
  let t := { t with own := { values, device } }
  match verdict with
  | .error reason => t.reply (-1) reason
  | .ok () => (t.onConn (sendAll values)).reply 0 "OK"

/-- A command. The name of a writable value is short for an assignment. -/
def receiveCommand (dev : Device σ) (opcode params : String) (t : Turn τ σ) :
    Turn τ σ × Option ParseError :=
  if opcode = "info" then (receiveInfo dev t, none)
  else if ((t.own.values.get? opcode).map (·.flags.writable)).getD false then
    receiveSet dev opcode .assign params t
  else
    let (outcome, values, device) := dev.command opcode params t.own.values t.own.device
    let t := { t with own := { values, device } }
    (match outcome with
      | .ok => t.reply 0 "OK"
      | .failed code reason => t.reply code reason
      | .requeue => t.reply codeRequeue "retry later"
      | .unknown => t.reply (-2) ("unknown command " ++ opcode), none)

/-! ## Lines -/

/-- Handles one record. A parse error is one that only showed in what the record says. -/
def dispatch (dev : Device σ) (r : Record) (t : Turn τ σ) : Turn τ σ × Option ParseError :=
  let quiet (f : Connection τ → Connection τ × Option ParseError) : Turn τ σ × Option ParseError :=
    let (conn, e) := f t.conn
    ({ t with conn }, e)
  match r with
  | .value name text => quiet (replicate name text)
  | .metaInfo code name description => quiet (announce code name description)
  | .symbolInfo name symbol => (t.onConn (announceSymbol name symbol), none)
  | .status bits => (t.onConn (receiveStatus bits), none)
  | .blocking bits => (t.onConn fun c => { c with blocking := bits }, none)
  | .message m => (t.onConn fun c => c.emit (.message c.id m), none)
  | .technical text => (t.onConn (receiveTechnical text), none)
  | .reply code reason => (t.onConn (receiveReply code reason), none)
  | .set name op text => receiveSet dev name op text t
  | .command opcode params => receiveCommand dev opcode params t

/-- Counts a malformed record; one too many closes the connection. -/
def countParseError (c : Connection τ) : Connection τ :=
  let c := { c with parseErrors := c.parseErrors + 1 }
  if c.maxParseErrors < c.parseErrors then
    c.finishClose (.protocol (.tooManyParseErrors c.parseErrors))
  else c

/-- Handles one line. A blank line is no record. -/
def processLine (dev : Device σ) (line : String) (t : Turn τ σ) : Turn τ σ :=
  if Text.isBlankLine line.toList then t
  else match Record.parse line with
    | .error _ => t.onConn countParseError
    | .ok r =>
      match dispatch dev r t with
      -- only malformed lines without a good one among them add up
      | (t, none) => t.onConn fun c => { c with parseErrors := 0 }
      | (t, some _) => t.onConn countParseError

/-- Handles one frame. A closed connection handles none. -/
def processFrame (dev : Device σ) (t : Turn τ σ) (frame : Framing.Frame) : Turn τ σ :=
  if t.conn.isClosed then t
  else match frame with
    | .ok line => processLine dev line t
    | .error _ => t.onConn countParseError

def receive (dev : Device σ) (now : Instant) (bytes : Bytes) (t : Turn τ σ) : Turn τ σ :=
  let (frames, input) := t.conn.input.push bytes
  let t := t.onConn fun c => { c with lastActivity := now, lastKeepalive := none, input }
  frames.foldl (processFrame dev) t

end Connection

end Observatory
