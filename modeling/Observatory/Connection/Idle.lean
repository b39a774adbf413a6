import Observatory.Connection.Basic
/-!
# Timers of a connection

What a connection does when nothing else happens: it ends a child that runs too long, sends a
command that is to be sent again, asks a silent peer for a sign of life, and drops a peer that
has been silent for too long.
-/

namespace Observatory.Connection

variable {τ : Type}

/-- Kills a child that runs too long and closes the connection. -/
def killOverdue (h : Helper τ) (c : Connection τ) : Connection τ :=
  let (first, h) := (h.signal true .kill).finish c.id .timedOut
  let c := { c with helper := some h }
  let c := if first then c.emit (.childEnded c.id h.pid .timedOut) else c
  c.finishClose .timeout

/-- Asks for a sign of life when a quarter of the timeout has passed in silence, and again after
every further quarter; when all of it has passed, closes. -/
def watchSilence (now : Instant) (timeout : Duration) (c : Connection τ) : Connection τ :=
  let silent := Instant.since now c.lastActivity
  let interval := timeout / 4
  let due := match c.lastKeepalive with
    | none => true
    | some sent => interval ≤ Instant.since now sent
  if timeout < silent then c.finishClose .timeout
  else if interval ≤ silent && due then
    { c.send (.technical "ready") with lastKeepalive := some now }
  else c

def idleEstablished (now : Instant) (c : Connection τ) : Connection τ :=
  if c.isEstablished then
    let c := c.pump
    match c.timeout with
    | none => c
    | some timeout => c.watchSilence now timeout
  else c

def idle (now : Instant) (c : Connection τ) : Connection τ :=
  match c.helper with
  | some h => if h.deadlinePassed now then c.killOverdue h else c.idleEstablished now
  | none => c.idleEstablished now

/-- The exit status of the child was collected. The connection is closed once the child's output
has ended too. -/
def childReturned (exit : ChildExit) (c : Connection τ) : Connection τ :=
  match c.helper with
  | none => c
  | some h =>
    let (first, h) := ({ h with reaped := true }).finish c.id exit
    let c := { c with helper := some h }
    let c := if first then c.emit (.childEnded c.id h.pid exit) else c
    if c.readClosed || c.link.isDetached then c.finishClose .childEnded else c

end Observatory.Connection
