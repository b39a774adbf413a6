import Observatory.Bus
import Observatory.Connection.Idle
import Observatory.Connection.Passes
import Observatory.Settings
/-!
# Endpoints

One participant of an observatory: the values it owns, the back end behind them, its connections
and the listeners that are told what happens. Whatever happens on a connection is delivered to
the listeners before the operation that caused it is over.
-/

namespace Observatory

/-- The kinds of parts an endpoint is built from: the byte streams with states `τ`, the back end
with state `σ`, and the listeners with states `ℓ`, whose journal has entries `η`. -/
structure Wiring (τ σ ℓ η : Type) where
  transport : Transport τ
  device : Device σ
  react : Bus.React τ ℓ η

/-- What an endpoint has to tell: what became of commands, what became of children, what the
listeners noted, and what the system is to do. -/
structure Outbox (τ η : Type) where
  notices : List Completion := []
  reports : List HelperReport := []
  journal : List η := []
  signals : List SignalRequest := []
  /-- Streams that are no longer used, with the connections that used them. -/
  released : List (ConnId × τ) := []

/-- One participant of an observatory. -/
structure Endpoint (τ σ ℓ η : Type) where
  settings : Settings
  device : σ
  values : Registry := {}
  listeners : List ℓ := []
  connections : Connections τ := {}
  /-- The state word announced to subscribers. -/
  status : DeviceStatus := {}
  /-- Events that were not delivered yet. -/
  pending : List Event := []
  /-- Children of dropped connections whose exit status was not collected. -/
  orphans : List Pid := []
  running : Bool := false
  outbox : Outbox τ η := {}

namespace Endpoint

variable {τ σ ℓ η : Type}

/-! ## Views -/

def name (e : Endpoint τ σ ℓ η) : String := e.settings.name

def connection? (id : ConnId) (e : Endpoint τ σ ℓ η) : Option (Connection τ) :=
  e.connections.get? id

/-- Every child whose exit status is still to be collected. -/
def children (e : Endpoint τ σ ℓ η) : List Pid :=
  (e.connections.items.filterMap fun c => c.helper.bind fun h =>
    if h.reaped then none else some h.pid) ++ e.orphans

/-! ## Changes -/

def onConnections (f : Connection τ → Connection τ) (e : Endpoint τ σ ℓ η) : Endpoint τ σ ℓ η :=
  { e with connections := e.connections.map f }

/-- Whether a connection is sent the status and the dirty values. -/
def isSubscriber (c : Connection τ) : Bool := c.kind.subscribes && c.isEstablished

def onSubscribers (f : Connection τ → Connection τ) (e : Endpoint τ σ ℓ η) : Endpoint τ σ ℓ η :=
  e.onConnections fun c => if isSubscriber c then f c else c

def addListener (listener : ℓ) (e : Endpoint τ σ ℓ η) : Endpoint τ σ ℓ η :=
  { e with listeners := e.listeners ++ [listener] }

/-! ## Delivery -/

/-- Takes what a connection has to tell its owner and the system. -/
def emptied (c : Connection τ) : Connection τ :=
  { c with
    queue := { c.queue with notices := [] }
    helper := c.helper.map fun h => { h with reports := [], signals := [] }
    released := [] }

/-- Gathers what the connections have to tell, in the order of the connections. -/
def collect (e : Endpoint τ σ ℓ η) : Endpoint τ σ ℓ η :=
  let items := e.connections.items
  let helpers := items.filterMap (·.helper)
  { e with
    connections := e.connections.map emptied
    outbox := { e.outbox with
      notices := e.outbox.notices ++ items.flatMap (·.queue.notices)
      reports := e.outbox.reports ++ helpers.flatMap (·.reports)
      signals := e.outbox.signals ++ helpers.flatMap (·.signals)
      released := e.outbox.released ++ items.flatMap fun c => c.released.map (c.id, ·) } }

/-- Takes what the endpoint has to tell. -/
def takeOutbox (e : Endpoint τ σ ℓ η) : Outbox τ η × Endpoint τ σ ℓ η :=
  let e := e.collect
  (e.outbox, { e with outbox := {} })

/-- Delivers what happened to the listeners, in the order of the connections. What listeners do
makes no events of its own on a connection, so nothing is left undelivered. True when there was
something to deliver. -/
def deliver (w : Wiring τ σ ℓ η) (e : Endpoint τ σ ℓ η) : Bool × Endpoint τ σ ℓ η :=
  let e := e.collect
  let (events, connections) := e.connections.takeEvents
  let events := e.pending ++ events
  let stage := events.foldl (Bus.deliver w.react) ⟨e.listeners, connections, e.outbox.journal⟩
  (!events.isEmpty, { e with
    pending := []
    listeners := stage.listeners
    connections := stage.connections
    outbox := { e.outbox with journal := stage.journal } })

def postEvent (w : Wiring τ σ ℓ η) (event : Event) (e : Endpoint τ σ ℓ η) : Endpoint τ σ ℓ η :=
  (({ e with pending := e.pending ++ [event] }).deliver w).2

end Endpoint

end Observatory
