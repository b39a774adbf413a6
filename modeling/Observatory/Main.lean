import Observatory.Client.Arguments
import Observatory.Client.Session
import Observatory.Connection.Wire
import Observatory.Daemon.Run
import Std.Async.DNS
import Std.Async.Signal
import Std.Async.TCP
/-!
# The programs

The client and, behind the word `daemon`, the focuser daemon. Sockets are connected to the wires
of an endpoint: what arrives is fed to them before a pass, what they carry is sent after it.
-/

namespace Observatory.Network

open Std.Async Std.Net

/-! ## Sockets and wires -/

/-- A socket, the connection that it serves, and the reading that is under way. -/
structure Peer where
  conn : ConnId
  socket : TCP.Socket.Client
  reading : AsyncTask (Option ByteArray)

def Peer.start (conn : ConnId) (socket : TCP.Socket.Client) : IO Peer :=
  return ⟨conn, socket, ← (socket.recv? 4096).asTask⟩

/-- Takes what arrived, and says what it does to the wire. -/
def Peer.poll (p : Peer) : IO (Peer × (Wire → Wire)) := do
  if !(← IO.hasFinished p.reading) then return (p, id)
  match p.reading.get with
  | .ok (some bytes) =>
    return ({ p with reading := ← (p.socket.recv? 4096).asTask }, Wire.feed bytes.toList)
  | .ok none => return (p, fun w => { w with ended := true })
  | .error e => return (p, fun w => { w with readError := some (toString e) })

/-- Sends bytes, and says what a failure does to the wire. -/
def Peer.send (bytes : Bytes) (p : Peer) : IO (Wire → Wire) := do
  if bytes.isEmpty then return id
  try
    (p.socket.send ⟨bytes.toArray⟩).block
    return id
  catch e => return fun w => { w with writeError := some (toString e) }

section

variable {σ ℓ η : Type}

def onWire (conn : ConnId) (f : Wire → Wire) (e : Endpoint Wire σ ℓ η) : Endpoint Wire σ ℓ η :=
  e.onConnections fun c => if c.id = conn then { c with link := c.link.map f } else c

/-- Feeds the wires with what arrived. -/
def receive (e : Endpoint Wire σ ℓ η) (peers : List Peer) :
    IO (Endpoint Wire σ ℓ η × List Peer) := do
  peers.foldlM (fun (e, peers) p => do
    let (p, f) ← p.poll
    return (onWire p.conn f e, peers ++ [p])) (e, [])

/-- Sends what the wires carry. Peers whose connection is gone are left out. -/
def send (e : Endpoint Wire σ ℓ η) (released : List (ConnId × Wire)) (peers : List Peer) :
    IO (Endpoint Wire σ ℓ η × List Peer) :=
  peers.foldlM (fun (e, peers) p => do
    match (e.connection? p.conn).bind (·.link.stream?) with
    | some w =>
      let f ← p.send w.outgoing
      return (onWire p.conn (fun w => f w.pickUp.2) e, peers ++ [p])
    | none =>
      for (conn, w) in released do
        if conn = p.conn then discard (p.send w.outgoing)
      return (e, peers)) (e, [])

end

def anyReady (peers : List Peer) : IO Bool := peers.anyM fun p => IO.hasFinished p.reading

/-- Waits until something arrived, in steps of five milliseconds, at most so many. -/
def waitFor (ready : IO Bool) : Nat → IO Unit
  | 0 => return
  | steps + 1 => do
    if ← ready then return
    IO.sleep 5
    waitFor ready steps

/-- The address that a host and a port stand for. -/
def resolve (host : String) (port : Nat) : IO SocketAddress := do
  if let some addr := IPv4Addr.ofString host then return .v4 ⟨addr, port.toUInt16⟩
  let found : Array IPAddr ← (DNS.getAddrInfo host "").block
  match found.toList with
  | .v4 addr :: _ => return .v4 ⟨addr, port.toUInt16⟩
  | .v6 addr :: _ => return .v6 ⟨addr, port.toUInt16⟩
  | [] => throw (IO.userError "no address")

def addressText : SocketAddress → String
  | .v4 a => s!"{a.addr.toString}:{a.port}"
  | .v6 a => s!"[{a.addr.toString}]:{a.port}"

/-! ## The client -/

/-- What became of a connect. -/
def connectAnswer (connecting : AsyncTask Unit) : IO (Connection.ConnectAnswer Wire) := do
  if !(← IO.hasFinished connecting) then return .pending
  match connecting.get with
  | .ok _ => return .connected {}
  | .error e => return .failed (toString e)

/-- Prints the lines of a session that were not printed yet. -/
def printFrom (count : Nat) (s : Client.Session Wire) : IO Unit :=
  (s.printed.drop count).forM fun
    | .out line => IO.println line
    | .error line => IO.eprintln line

partial def converse (start : Nat) (socket : TCP.Socket.Client) (connecting : AsyncTask Unit)
    (s : Client.Session Wire) (peers : List Peer) : IO UInt32 := do
  let answer ← connectAnswer connecting
  let (endpoint, peers) ← receive s.endpoint peers
  let now := (← IO.monoNanosNow) - start
  let count := s.printed.length
  let s := { s with endpoint }.advance Wire.transport { now, connects := fun _ => answer }
  printFrom count s
  let peers ← match peers, s.device?, answer with
    | [], some c, .connected _ => pure [← Peer.start c.id socket]
    | peers, _, _ => pure peers
  let (endpoint, peers) ← send s.endpoint s.released peers
  match s.phase with
  | .ended (.ok _) => return 0
  | .ended (.error e) =>
    IO.eprintln s!"Error: {e.message}"
    return 1
  | _ =>
    waitFor (anyReady peers) 4
    converse start socket connecting { s with endpoint } peers

def client (args : List String) : IO UInt32 := do
  match Client.Request.ofArguments args with
  | .error (.usage e) =>
    IO.eprintln "usage: [OPTIONS] values | get NAME | set NAME VALUE... | cmd LINE... | watch"
    return if e = .helpDisplayed || e = .versionDisplayed then 0 else 1
  | .error e =>
    IO.eprintln s!"Error: {e.message}"
    return 1
  | .ok request =>
    let start ← IO.monoNanosNow
    let socket ← TCP.Socket.Client.mk
    let connect : Async Unit := do socket.connect (← resolve request.host request.port)
    let s := Client.Session.start request 0
    printFrom 0 s
    converse start socket (← connect.asTask) s []

/-! ## The daemon -/

partial def serve (start : Nat) (server : TCP.Socket.Server) (stop : AsyncTask Int)
    (h : Daemon.Host Wire) (peers : List Peer) : IO (Daemon.Host Wire) := do
  if ← IO.hasFinished stop then return h
  let (h, peers) ← receive h peers
  let arrival ← server.tryAccept
  let id := h.connections.lastId + 1
  let arrivals ← match arrival with
    | some socket => pure [(addressText (← socket.getPeerName), ({} : Wire))]
    | none => pure []
  let peers ← match arrival with
    | some socket => pure (peers ++ [← Peer.start id socket])
    | none => pure peers
  let now := (← IO.monoNanosNow) - start
  let (box, h) := (h.tick (Daemon.wiring Wire.transport) { now, arrivals }).takeOutbox
  let quiet := (h.connections.items.all fun c => (c.link.stream?.map (·.outgoing)).getD [] == [])
  let (h, peers) ← send h box.released peers
  if quiet && arrival.isNone then
    waitFor (anyReady peers) (min 20 (h.settings.idleTimeoutMs / 5 + 1))
  serve start server stop h peers

/-- The file that holds the settings, if one is named. -/
def readSettings (o : Daemon.Options) : IO (Option (Except String String)) :=
  o.config.mapM fun path => do
    try return .ok (← IO.FS.readFile path)
    catch e => return .error (toString e)

def listen (s : Settings) (address : String) : IO UInt32 := do
  let parts := address.splitOn ":"
  let host := ":".intercalate parts.dropLast
  let port := ((parts.getLast?.bind fun port => Number.readUnsigned port.toList).getD 0)
  let server ← TCP.Socket.Server.mk
  server.bind (← resolve host port)
  server.listen 128
  IO.println (Daemon.listening (addressText (← server.getSockName)))
  let stop ← (← Signal.Waiter.mk .sigint false).wait
  let h ← serve (← IO.monoNanosNow) server stop (Daemon.host s) []
  Daemon.stopping.forM fun line => IO.println line
  let time ← Std.Time.Timestamp.now
  discard (pure (Daemon.stop Wire.transport time.toSecondsSinceUnixEpoch.val.toInt64 0 h))
  return 0

def daemon (args : List String) : IO UInt32 := do
  match Daemon.Options.ofArguments args with
  | .error e =>
    IO.eprintln "usage: daemon [-c FILE] [-l ADDRESS] [-n NAME]"
    return if e = .helpDisplayed || e = .versionDisplayed then 0 else 1
  | .ok o =>
    let (lines, result) := Daemon.prepare o (← readSettings o)
    lines.forM fun line => IO.println line
    match result with
    | .ok (s, address) => listen s address
    | .error e =>
      IO.eprintln s!"Error: {e.message}"
      return 1

end Observatory.Network

/-- Runs the client, or the daemon if the first argument says so. -/
def main : List String → IO UInt32
  | "daemon" :: args => Observatory.Network.daemon args
  | args => Observatory.Network.client args
