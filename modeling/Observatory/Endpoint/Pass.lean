import Observatory.Endpoint.Peers
/-!
# Passes of an endpoint

One pass takes new peers in, reads from every connection, delivers what that caused, writes to
every connection and delivers again. After each pass closed connections are dropped, children
are collected, and timers and the back end run.
-/

namespace Observatory

/-- What one pass finds: the time, new peers with their addresses, how connects came to an end,
and which children ended. -/
structure Pass (τ : Type) where
  now : Instant
  arrivals : List (String × τ) := []
  connects : ConnId → Connection.ConnectAnswer τ := fun _ => .pending
  exits : Pid → Option ChildExit := fun _ => none

namespace Endpoint

variable {τ σ ℓ η : Type}

/-! ## Accepting, reading and writing -/

def accept (now : Instant) (e : Endpoint τ σ ℓ η) (arrival : String × τ) : Endpoint τ σ ℓ η :=
  let (id, e) := e.attach arrival.1 .client arrival.2 now
  { e with pending := e.pending ++ [.connectionEstablished id arrival.1] }

/-- Reads whatever one connection has to give. -/
def readOne (w : Wiring τ σ ℓ η) (p : Pass τ) (t : Turn τ σ) : Bool × Turn τ σ :=
  let (connected, conn) := t.conn.pollConnect (p.connects t.conn.id) p.now
  let (moved, t) := Connection.readPass w.transport w.device p.now { t with conn }
  let (erred, conn) := Connection.errorPass w.transport t.conn
  (connected || moved || erred, { t with conn })

def readEach (w : Wiring τ σ ℓ η) (p : Pass τ) :
    List (Connection τ) → Local σ → Bool × List (Connection τ) × Local σ
  | [], own => (false, [], own)
  | c :: rest, own =>
    let (moved, t) := readOne w p ⟨c, own⟩
    let (more, rest, own) := readEach w p rest t.own
    (moved || more, t.conn :: rest, own)

def read (w : Wiring τ σ ℓ η) (p : Pass τ) (e : Endpoint τ σ ℓ η) : Bool × Endpoint τ σ ℓ η :=
  let (moved, items, own) := readEach w p e.connections.items ⟨e.values, e.device⟩
  (moved, { e with
    connections := { e.connections with items }
    values := own.values
    device := own.device })

/-- Writes to a connection that has something to send. -/
def writeOne (w : Wiring τ σ ℓ η) (c : Connection τ) : Bool × Connection τ :=
  if c.wantsWrite then Connection.writePass w.transport c else (false, c)

def write (w : Wiring τ σ ℓ η) (e : Endpoint τ σ ℓ η) : Bool × Endpoint τ σ ℓ η :=
  let written := e.connections.items.map (writeOne w)
  (written.any Prod.fst,
    { e with connections := { e.connections with items := written.map Prod.snd } })

/-- One pass over all connections. True when something moved. -/
def poll (w : Wiring τ σ ℓ η) (p : Pass τ) (e : Endpoint τ σ ℓ η) : Bool × Endpoint τ σ ℓ η :=
  let e := p.arrivals.foldl (accept p.now) e
  let (read, e) := e.read w p
  let (caused, e) := e.deliver w
  let (written, e) := e.write w
  let (ended, e) := e.deliver w
  (!p.arrivals.isEmpty || read || caused || written || ended, e)

/-! ## Housekeeping -/

/-- Drops closed connections after all that happened on them was delivered. A child that is still
running is remembered; one whose end was not reported is interrupted. -/
def removeClosed (w : Wiring τ σ ℓ η) (e : Endpoint τ σ ℓ η) : Endpoint τ σ ℓ η :=
  let e := (e.deliver w).2
  let (spent, connections) := e.connections.removeClosed
  let helpers := spent.filterMap (·.helper)
  { e with
    connections
    orphans := e.orphans ++ (helpers.filter fun h => !h.reaped).map (·.pid)
    outbox := { e.outbox with signals := e.outbox.signals ++ helpers.flatMap Helper.abandon } }

/-- Collects the exit status of the child of one connection. -/
def reapOne (exits : Pid → Option ChildExit) (c : Connection τ) : Connection τ :=
  match c.helper with
  | none => c
  | some h =>
    if h.reaped then c
    else match exits h.pid with
      | some exit => c.childReturned exit
      | none => c

/-- Collects the exit status of every child that ended. -/
def reap (exits : Pid → Option ChildExit) (e : Endpoint τ σ ℓ η) : Endpoint τ σ ℓ η :=
  let e := (e.onConnections (reapOne exits)).collect
  -- how these children ended is told nobody: their connections are gone
  { e with orphans := e.orphans.filter fun pid => (exits pid).isNone }

/-- Lets the back end run and takes over its part of the status. -/
def runDevice (w : Wiring τ σ ℓ η) (e : Endpoint τ σ ℓ η) : Endpoint τ σ ℓ η :=
  let (values, device) := w.device.idle e.values e.device
  let e := { e with values, device }
  match w.device.status device with
  | some (mask, bits) => e.setStatus mask bits
  | none => e

/-- What is done after every pass. -/
def idle (w : Wiring τ σ ℓ η) (now : Instant) (exits : Pid → Option ChildExit)
    (e : Endpoint τ σ ℓ η) : Endpoint τ σ ℓ η :=
  let e := e.reap exits
  let e := e.onConnections (Connection.idle now)
  ((e.runDevice w).broadcastDirty).removeClosed w

/-- One pass with all that follows it. -/
def tick (w : Wiring τ σ ℓ η) (p : Pass τ) (e : Endpoint τ σ ℓ η) : Endpoint τ σ ℓ η :=
  (((e.poll w p).2.removeClosed w).idle w p.now p.exits)

end Endpoint

end Observatory
