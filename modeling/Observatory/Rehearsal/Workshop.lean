import Observatory.Rehearsal.Processes
import Observatory.Rehearsal.Theatre
/-!
# Rehearsals with children

An endpoint without a back end whose children are rehearsed processes. Between two steps of the
endpoint the bytes that it wrote go to its children, and these run until each of them waits; what
they wrote is there for the next step.
-/

namespace Observatory.Rehearsal

/-- A child that was started, and its connection. -/
structure Ward where
  conn : ConnId
  pid : Pid
  /-- Somebody is told of its end and of what it writes to its error stream. -/
  observed : Bool

/-- An endpoint and its children. -/
structure Workshop where
  player : Player Unit
  system : System := {}
  wards : List Ward := []
  /-- The endpoint was given up. -/
  abandoned : Bool := false

namespace Workshop

/-- The time between two passes. -/
def pause : Duration := Duration.ofMillis 5

/-- The most steps that processes take between two passes. -/
def rounds : Nat := 5000

/-! ## Pipes and wires -/

/-- The failure of a writing that nobody can read. -/
def brokenPipe : String := "Broken pipe (os error 32)"

def feed (pid : Pid) (bytes : Bytes) (sys : System) : System :=
  sys.onPipe pid 0 fun p => { p with content := p.content ++ bytes }

/-- Carries what the endpoint wrote to a child, and lets go of the pipes that it has left. -/
def toChild (w : Workshop) (a : Ward) : Workshop :=
  let c := w.player.connection? a.conn
  let wire := c.bind (·.link.stream?)
  let errors := (c.bind (·.helper)).bind (·.errors)
  let hold (slot : Nat) (held : Bool) (sys : System) :=
    sys.onPipe a.pid slot fun p => { p with held }
  let sys := feed a.pid ((wire.map (·.outgoing)).getD []) w.system
  { w with
    system := hold 2 errors.isSome (hold 1 wire.isSome (hold 0 wire.isSome sys))
    player := w.player.onConnections fun c =>
      if c.id = a.conn then { c with link := c.link.map fun wire => wire.pickUp.2 } else c }

def written (pid : Pid) (slot : Nat) (sys : System) : Bytes :=
  ((sys.pipe? pid slot).map (·.content)).getD []

def fromChild (w : Workshop) (a : Ward) : Workshop :=
  let sys := w.system
  let arrive (slot : Nat) (wire : Wire) : Wire :=
    { wire.feed (written a.pid slot sys) with ended := !sys.isOpen a.pid slot }
  let broken (h : Helper Wire) := h.hasInput && !sys.isOpen a.pid 0
  let clear (slot : Nat) (sys : System) := sys.onPipe a.pid slot fun p => { p with content := [] }
  { w with
    system := clear 1 (clear 2 sys)
    player := w.player.onConnections fun c =>
      if c.id = a.conn then { c with
        link := c.link.map fun wire => { arrive 1 wire with
          writeError := if c.helper.any broken then some brokenPipe else none }
        helper := c.helper.map fun h => { h with errors := h.errors.map (arrive 2) } }
      else c }

def pid? (conn : ConnId) (w : Workshop) : Option Pid :=
  (w.wards.find? fun a => a.conn == conn).map (·.pid)

/-- Does what the endpoint asks of the system. -/
def obey (w : Workshop) : Workshop :=
  let player := w.player.collect
  let box := player.outbox
  let sys := box.released.foldl (fun sys (conn, wire) => match w.pid? conn with
    | some pid => feed pid wire.outgoing sys
    | none => sys) w.system
  let sys := box.signals.foldl (fun sys r =>
    sys.kill (if r.group then -(r.pid : Int) else r.pid) r.signal) sys
  { w with
    system := sys
    player := { player with outbox := { box with signals := [], released := [] } } }

/-- Runs the processes until each of them waits. -/
def settle (w : Workshop) : Workshop :=
  let w := w.wards.foldl toChild w.obey
  let w := { w with system := w.system.settle rounds }
  w.wards.foldl fromChild w

/-! ## What is told -/

/-- Whether a report is about a child that somebody observes. -/
def isObserved (w : Workshop) (r : HelperReport) : Bool :=
  w.wards.any fun a => a.observed && a.conn == match r with
    | .childEnd conn _ | .errorLine conn _ => conn

def exits (w : Workshop) : List ChildExit :=
  (w.player.outbox.reports.filter w.isObserved).filterMap fun
    | .childEnd _ exit => some exit
    | .errorLine .. => none

def errorLines (w : Workshop) : List String :=
  (w.player.outbox.reports.filter w.isObserved).filterMap fun
    | .childEnd .. => none
    | .errorLine _ line => some line

/-- Whether so many events and lines of error streams were told. -/
def heard (events errors : Nat) (w : Workshop) : Bool :=
  events ≤ w.player.outbox.journal.length && errors ≤ w.errorLines.length

/-! ## Steps of the endpoint -/

/-- The endpoint after a step. It has collected the exits of the children that it no longer
asks for. -/
def become (player : Player Unit) (w : Workshop) : Workshop :=
  let collected := w.player.children.filter fun pid => !player.children.contains pid
  { w with player, system := w.system.collect collected }.settle

/-- One pass, and the time until the next one. -/
def tick (w : Workshop) : Workshop :=
  let player := w.player.tick (wiring Device.passive)
    { now := w.system.clock, exits := w.system.exit? }
  { w with system := w.system.pass pause }.become player

/-- How many passes are made to wait for something. -/
def patience : Nat := 1000

/-- Makes passes until something holds, at most so many; something else is done before each. -/
def tickUntil (p : Workshop → Bool) (before : Workshop → Workshop) :
    Nat → Workshop → Bool × Workshop
  | 0, w => (p w, w)
  | passes + 1, w => if p w then (true, w) else tickUntil p before passes (before w).tick

def spawn (exportState observed : Bool) (spec : HelperSpec) (w : Workshop) :
    Except LinkError ConnId × Workshop :=
  let spec := w.player.completeSpec exportState spec
  let started := w.system.start spec
  let child := started.map fun p => (⟨p.1, {}, {}⟩ : StartedHelper Wire)
  match w.player.adopt spec child w.system.clock, started with
  | .ok (conn, player), .ok (pid, system) =>
    (.ok conn, { w with player, system, wards := w.wards ++ [Ward.mk conn pid observed] }.settle)
  | .error e, _ => (.error e, w)
  | _, .error reason => (.error (.spawn spec.path reason), w)

/-! ## What the owner of a child does -/

/-- Sends a signal to the child of a connection, or to its group; nothing, without a child. -/
def signal (conn : ConnId) (group : Bool) (sig : Signal) (w : Workshop) :
    Option (Except LinkError Workshop) :=
  ((w.player.connection? conn).bind (·.helper)).map fun h =>
    let target : Int := if group then -(h.pid : Int) else h.pid
    if w.system.reaches target then .ok { w with system := w.system.kill target sig }.settle
    else .error (.system "ESRCH: No such process")

/-- Waits for the end of a process, at most so many pauses, and takes its exit away. -/
def takeExit (pid : Pid) : Nat → Workshop → ChildExit × Workshop
  | 0, w => (.lost, w)
  | pauses + 1, w =>
    match w.system.exit? pid with
    | some exit => (exit, { w with system := w.system.collect [pid] })
    | none => takeExit pid pauses { w with system := w.system.pass pause }.settle

def steal (conn : ConnId) (w : Workshop) : ChildExit × Workshop :=
  match w.pid? conn with
  | some pid => w.takeExit pid 4000
  | none => (.lost, w)

/-- Waits until so many events and lines of error streams were told. -/
def await (events errors : Nat) (w : Workshop) : Bool × Workshop :=
  w.tickUntil (heard events errors) id patience

/-- Waits for the end of a connection. A child that stops itself may be sent on before every
pass. -/
def awaitEnd (conn : ConnId) (resume : Bool) (w : Workshop) : Bool × Workshop :=
  let before (w : Workshop) : Workshop :=
    match if resume then w.signal conn false .cont else none with
    | some (.ok w) => w
    | _ => w
  w.tickUntil (fun w => (w.player.connection? conn).isNone) before patience

/-- Gives up the endpoint with all its connections. -/
def abandon (w : Workshop) : Workshop :=
  let signals := (w.player.connections.items.filterMap (·.helper)).flatMap Helper.abandon
  let box := w.player.outbox
  { w with
    abandoned := true
    player := { w.player with
      connections := {}, outbox := { box with signals := box.signals ++ signals } } }.settle

end Workshop

end Observatory.Rehearsal
