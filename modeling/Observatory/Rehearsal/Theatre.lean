import Observatory.Connection.Wire
import Observatory.Endpoint.Pass
import Observatory.Rehearsal.Actor
/-!
# Rehearsals of an endpoint

An endpoint whose streams are wires. Wires that the endpoint has given back are kept, so that all
that went over them can be looked at.
-/

namespace Observatory.Rehearsal

/-- An endpoint over wires with listeners that take notes. -/
abbrev Player (σ : Type) := Endpoint Wire σ Actor Note

/-- The wiring of such an endpoint around a back end. -/
def wiring {σ : Type} (device : Device σ) : Wiring Wire σ Actor Note :=
  ⟨Wire.transport, device, Actor.react⟩

/-- An endpoint together with the wires that it has given back. -/
structure Theatre (σ : Type) where
  player : Player σ
  /-- The connections that run or ran over wires. -/
  wired : List ConnId := []
  released : List (ConnId × Wire) := []
  /-- Which children ended. -/
  exits : Pid → Option ChildExit := fun _ => none

namespace Theatre

variable {σ : Type}

/-- Changes the wire of a connection, in use or given back. -/
def onWire (id : ConnId) (f : Wire → Wire) (g : Theatre σ) : Theatre σ :=
  match g.player.connection? id with
  | some c =>
    { g with player := { g.player with
        connections := g.player.connections.put { c with link := c.link.map f } } }
  | none => g

def onReleased (id : ConnId) (f : Wire → Wire) (g : Theatre σ) : Theatre σ :=
  { g with released := g.released.map fun (other, s) => (other, if other = id then f s else s) }

/-- The wire of a connection, in use or given back. -/
def wire? (id : ConnId) (g : Theatre σ) : Option Wire :=
  match (g.player.connection? id).bind fun c => c.link.stream? with
  | some s => some s
  | none => g.released.lookup id

def changeWire (id : ConnId) (f : Wire → Wire) (g : Theatre σ) : Theatre σ :=
  (g.onWire id f).onReleased id f

def addWired (name : String) (kind : PeerKind) (wire : Wire) (g : Theatre σ) :
    ConnId × Theatre σ :=
  let (id, player) := g.player.attach name kind wire 0
  (id, { g with player, wired := g.wired ++ [id] })

/-- Takes what the endpoint has to tell and keeps the wires that it gives back. -/
def takeOutbox (g : Theatre σ) : Outbox Wire Note × Theatre σ :=
  let (box, player) := g.player.takeOutbox
  (box, { g with player, released := g.released ++ box.released })

/-- Forgets the output that was looked at: what wires carried, and what collected on connections
over nothing. -/
def clearOutput (g : Theatre σ) : Theatre σ :=
  let g := g.wired.foldl (fun g id => g.changeWire id fun w => w.pickUp.2) g
  { g with player := g.player.onConnections fun c =>
      if g.wired.contains c.id then c else { c with output := [] } }

def tick (device : Device σ) (g : Theatre σ) : Theatre σ :=
  let player := g.player.tick (wiring device) { now := 0, exits := g.exits }
  let box := player.outbox
  { g with
    player := { player with outbox := { box with released := [] } }
    released := g.released ++ box.released }

/-- Makes passes until something holds, at most so many. -/
def tickUntil (device : Device σ) (p : Theatre σ → Bool) : Nat → Theatre σ → Bool × Theatre σ
  | 0, g => (p g, g)
  | passes + 1, g => if p g then (true, g) else tickUntil device p passes (g.tick device)

def awaitEnd (device : Device σ) (conn : ConnId) (g : Theatre σ) : Bool × Theatre σ :=
  g.tickUntil device (fun g => (g.player.connection? conn).isNone) 1000

/-- Waits until so many bytes went over the wire of a connection, and takes all that did. -/
def await (device : Device σ) (conn : ConnId) (count : Nat) (g : Theatre σ) : Bytes × Theatre σ :=
  let sent (g : Theatre σ) : Bytes := ((g.wire? conn).map (·.outgoing)).getD []
  let (_, g) := g.tickUntil device (fun g => count ≤ (sent g).length) 1000
  (sent g, g.changeWire conn (·.pickUp.2))

end Theatre

/-! ## Messages without their time -/

/-- A message line with its time replaced by zeros; any other line as it is. -/
def hideTime (line : String) : String :=
  match line.splitOn " " with
  | "MESSAGE" :: _ :: _ :: rest => " ".intercalate ("MESSAGE" :: "0" :: "0" :: rest)
  | _ => line

/-- Lines with the time of messages replaced by zeros. -/
def hideTimes (lines : String) : String := "\n".intercalate ((lines.splitOn "\n").map hideTime)

end Observatory.Rehearsal
