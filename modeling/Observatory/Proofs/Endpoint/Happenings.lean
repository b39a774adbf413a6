import Observatory.Endpoint.Pass
/-!
# What happens to an endpoint

Every operation of an endpoint is a sequence of a few things that happen to it: peers come, bytes
arrive, commands are queued, what happened is delivered, closed connections are dropped. A run is
any sequence of them, so what is true of every run is true whatever the owner, the peers, the
children and the listeners do, and in whatever order.

* `Happening.apply`, `Happening.run` — one thing that happens, and several.
* `Endpoint.run_receive`, `Endpoint.run_postEvent`, `Endpoint.run_poll`, `Endpoint.run_tick`,
  `Endpoint.run_shutdown` and others — the operations are such sequences.
-/

namespace Observatory

/-- One thing that happens to an endpoint. -/
inductive Happening (τ ℓ : Type) where
  /-- The owner changes the values. -/
  | touch (values : Registry)
  | listen (listener : ℓ)
  /-- The owner posts an event. -/
  | post (event : Event)
  /-- The owner takes a number for a connection. -/
  | number
  /-- The owner takes in a connection over nothing. -/
  | add (kind : PeerKind) (name : String) (now : Instant)
  | connect (name address : String) (kind : PeerKind) (now : Instant)
  | attach (name : String) (kind : PeerKind) (stream : τ) (now : Instant)
  | accept (now : Instant) (arrival : String × τ)
  | adopt (spec : HelperSpec) (started : Except String (StartedHelper τ)) (now : Instant)
  | queue (conn : ConnId) (command : Command)
  | queueTo (peer : String) (command : Command)
  /-- Bytes of a peer arrive. -/
  | hear (conn : ConnId) (now : Instant) (bytes : Bytes)
  /-- The end of a connection is asked for. -/
  | askClose (conn : ConnId)
  /-- The end of every connection is asked for. -/
  | askCloseAll
  | setStatus (mask bits : UInt32)
  | infoAll
  | message (sec : Int64) (usec : UInt32) (severity : Severity) (text : String)
  /-- Every connection reads what its peer has to give. -/
  | read (p : Pass τ)
  | write
  | deliver
  /-- The closed connections whose events were delivered are dropped. -/
  | drop
  | reap (exits : Pid → Option ChildExit)
  /-- The timers of every connection run. -/
  | watch (now : Instant)
  | runDevice
  | broadcastDirty
  | takeOutbox
  /-- The owner takes what a connection wrote. -/
  | takeOutput (conn : ConnId)

namespace Endpoint

variable {τ σ ℓ η : Type}

/-- The connection as it is taken in: a subscriber is sent the status. -/
def welcome (e : Endpoint τ σ ℓ η) (c : Connection τ) : Connection τ :=
  let c := configure e.settings c
  if isSubscriber c then c.send (.status e.status.bits) else c

/-- Drops the closed connections whose events were delivered, and remembers their children. -/
def dropSpent (e : Endpoint τ σ ℓ η) : Endpoint τ σ ℓ η :=
  let (spent, connections) := e.connections.removeClosed
  let helpers := spent.filterMap (·.helper)
  { e with
    connections
    orphans := e.orphans ++ (helpers.filter fun h => !h.reaped).map (·.pid)
    outbox := { e.outbox with signals := e.outbox.signals ++ helpers.flatMap Helper.abandon } }

/-- A change of one connection. -/
def onOne (id : ConnId) (f : Connection τ → Connection τ) (e : Endpoint τ σ ℓ η) :
    Endpoint τ σ ℓ η :=
  match e.connection? id with
  | none => e
  | some c => { e with connections := e.connections.put (f c) }

/-- What a connection makes of bytes of its peer. -/
def heard (w : Wiring τ σ ℓ η) (e : Endpoint τ σ ℓ η) (now : Instant) (bytes : Bytes)
    (c : Connection τ) : Turn τ σ :=
  Connection.receive w.device now bytes ⟨c, ⟨e.values, e.device⟩⟩

/-- Bytes of a peer arrive. -/
def hear (w : Wiring τ σ ℓ η) (id : ConnId) (now : Instant) (bytes : Bytes)
    (e : Endpoint τ σ ℓ η) : Endpoint τ σ ℓ η :=
  match e.connection? id with
  | none => e
  | some c =>
    let t := e.heard w now bytes c
    { e with
      connections := e.connections.put t.conn
      values := t.own.values
      device := t.own.device }

end Endpoint

namespace Happening

variable {τ σ ℓ η : Type}

/-- What one thing that happens makes of an endpoint. -/
def apply (w : Wiring τ σ ℓ η) : Happening τ ℓ → Endpoint τ σ ℓ η → Endpoint τ σ ℓ η
  | touch values, e => { e with values }
  | listen listener, e => e.addListener listener
  | post event, e => { e with pending := e.pending ++ [event] }
  | number, e => { e with connections := e.connections.allocate.2 }
  | add kind name now, e => (e.enter fun id => .inMemory id kind name now).2
  | connect name address kind now, e => (e.connect name address kind now).2
  | attach name kind stream now, e => (e.attach name kind stream now).2
  | accept now arrival, e => e.accept now arrival
  | adopt spec started now, e =>
    match e.adopt spec started now with
    | .ok (_, e) => e
    | .error _ => e
  | queue conn command, e => (e.queueCommand conn command).2
  | queueTo peer command, e => (e.queueCommandTo peer command).2
  | hear conn now bytes, e => e.hear w conn now bytes
  | askClose conn, e => e.onOne conn (·.close .requested)
  | askCloseAll, e => { e.onConnections (·.close .requested) with running := false }
  | setStatus mask bits, e => e.setStatus mask bits
  | infoAll, e => e.infoAll
  | message sec usec severity text, e => e.broadcastMessage sec usec severity text
  | read p, e => (e.read w p).2
  | write, e => (e.write w).2
  | deliver, e => (e.deliver w).2
  | drop, e => e.dropSpent
  | reap exits, e => e.reap exits
  | watch now, e => e.onConnections (Connection.idle now)
  | runDevice, e => e.runDevice w
  | broadcastDirty, e => e.broadcastDirty
  | takeOutbox, e => e.takeOutbox.2
  | takeOutput conn, e => e.onOne conn fun c => c.takeOutput.2

/-- Several things, one after another. -/
def run (w : Wiring τ σ ℓ η) (hs : List (Happening τ ℓ)) (e : Endpoint τ σ ℓ η) :
    Endpoint τ σ ℓ η :=
  hs.foldl (fun e h => h.apply w e) e

@[simp] theorem run_nil (w : Wiring τ σ ℓ η) (e : Endpoint τ σ ℓ η) : run w [] e = e := rfl

@[simp] theorem run_cons (w : Wiring τ σ ℓ η) (h : Happening τ ℓ) (hs : List (Happening τ ℓ))
    (e : Endpoint τ σ ℓ η) : run w (h :: hs) e = run w hs (h.apply w e) := rfl

@[simp] theorem run_append (w : Wiring τ σ ℓ η) (hs ks : List (Happening τ ℓ))
    (e : Endpoint τ σ ℓ η) : run w (hs ++ ks) e = run w ks (run w hs e) := List.foldl_append

theorem run_map_accept (w : Wiring τ σ ℓ η) (now : Instant) (arrivals : List (String × τ))
    (e : Endpoint τ σ ℓ η) :
    run w (arrivals.map (.accept now)) e = arrivals.foldl (Endpoint.accept now) e := by
  unfold run
  rw [List.foldl_map]
  rfl

end Happening

namespace Endpoint

open Happening (run)

variable {τ σ ℓ η : Type} (w : Wiring τ σ ℓ η) (e : Endpoint τ σ ℓ η)

/-! ## Operations as runs -/

theorem run_postEvent (event : Event) :
    e.postEvent w event = run w [.post event, .deliver] e := rfl

theorem run_receive {id : ConnId} {c : Connection τ} (hc : e.connection? id = some c)
    (now : Instant) (bytes : Bytes) :
    e.receive w id now bytes = .ok (run w [.hear id now bytes, .deliver] e) := by
  simp only [Endpoint.receive, hc, Happening.run_cons, Happening.run_nil, Happening.apply,
    Endpoint.hear, Endpoint.heard]

theorem run_close {id : ConnId} {c : Connection τ} (hc : e.connection? id = some c) :
    e.close w id = .ok (run w [.askClose id, .deliver] e) := by
  simp only [Endpoint.close, hc, Happening.run_cons, Happening.run_nil, Happening.apply,
    Endpoint.onOne]

theorem run_shutdown : e.shutdown w = run w [.askCloseAll, .deliver] e := rfl

theorem run_removeClosed : e.removeClosed w = run w [.deliver, .drop] e := rfl

theorem run_idle (now : Instant) (exits : Pid → Option ChildExit) : e.idle w now exits =
    run w [.reap exits, .watch now, .runDevice, .broadcastDirty, .deliver, .drop] e := rfl

theorem run_poll (p : Pass τ) : (e.poll w p).2 =
    run w (p.arrivals.map (.accept p.now) ++ [.read p, .deliver, .write, .deliver]) e := by
  rw [Happening.run_append, Happening.run_map_accept]
  rfl

/-- A whole pass: connections are read and written, the closed ones are dropped, and then the time
goes on. -/
theorem run_tick (p : Pass τ) : e.tick w p = run w (p.arrivals.map (.accept p.now) ++
    [.read p, .deliver, .write, .deliver, .deliver, .drop, .reap p.exits, .watch p.now, .runDevice,
      .broadcastDirty, .deliver, .drop]) e := by
  unfold Endpoint.tick
  rw [run_idle, run_removeClosed, run_poll, ← Happening.run_append, ← Happening.run_append,
    List.append_assoc]
  rfl

end Endpoint

end Observatory
