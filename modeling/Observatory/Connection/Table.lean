import Observatory.Connection.Basic
/-!
# The connections of an endpoint
-/

namespace Observatory

/-- The connections of an endpoint, in the order of their creation. -/
structure Connections (τ : Type) where
  items : List (Connection τ) := []
  /-- The number given out last. -/
  lastId : ConnId := 0

namespace Connections

variable {τ : Type}

/-- Gives out a number that was not given out before. -/
def allocate (t : Connections τ) : ConnId × Connections τ :=
  (t.lastId + 1, { t with lastId := t.lastId + 1 })

def insert (c : Connection τ) (t : Connections τ) : Connections τ :=
  { t with items := t.items ++ [c] }

def get? (id : ConnId) (t : Connections τ) : Option (Connection τ) :=
  t.items.find? fun c => c.id == id

/-- The first connection to the named peer that is not closed. -/
def byName? (name : String) (t : Connections τ) : Option (Connection τ) :=
  t.items.find? fun c => c.name == name && !c.isClosed

/-- Puts a connection in the place of the first one with its number. -/
def putFirst (c : Connection τ) : List (Connection τ) → List (Connection τ)
  | [] => []
  | d :: ds => if d.id == c.id then c :: ds else d :: putFirst c ds

/-- Puts a connection in the place of the one with its number. -/
def put (c : Connection τ) (t : Connections τ) : Connections τ :=
  { t with items := putFirst c t.items }

def map (f : Connection τ → Connection τ) (t : Connections τ) : Connections τ :=
  { t with items := t.items.map f }

def queueCommand (id : ConnId) (command : Command) (t : Connections τ) :
    Except LinkError CommandHandle × Connections τ :=
  match t.get? id with
  | none => (.error (.unknownConnection id), t)
  | some c =>
    let (result, c) := c.queueCommand false command
    (result, t.put c)

def queueCommandTo (name : String) (command : Command) (t : Connections τ) :
    Except LinkError CommandHandle × Connections τ :=
  match t.byName? name with
  | none => (.error (.unknownPeer name), t)
  | some c =>
    let (result, c) := c.queueCommand false command
    (result, t.put c)

def takeEvents (t : Connections τ) : List Event × Connections τ :=
  (t.items.flatMap (·.events), t.map fun c => { c with events := [] })

/-- Takes the reports on tracked commands of every connection. -/
def takeNotices (t : Connections τ) : List Completion × Connections τ :=
  (t.items.flatMap (·.queue.notices),
    t.map fun c => { c with queue := { c.queue with notices := [] } })

/-- Whether a connection can be dropped: it is closed and its events were collected. -/
def isSpent (c : Connection τ) : Bool := c.isClosed && !c.hasEvents

/-- Drops the spent connections and gives them back. -/
def removeClosed (t : Connections τ) : List (Connection τ) × Connections τ :=
  (t.items.filter isSpent, { t with items := t.items.filter fun c => !isSpent c })

end Connections

end Observatory
