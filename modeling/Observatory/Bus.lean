import Observatory.Connection.Table
/-!
# The event bus

Listeners are told of every event, one after another. While a listener handles an event it may
post others and queue commands. What it posts reaches every listener, with all that this
provokes in turn, before the next listener hears of the event itself. Thirty-two levels deep
the bus stops listening to what is posted.
-/

namespace Observatory

/-! ## What a listener does -/

/-- The handling of one event: a listener looks at the connections, queues commands, posts events,
writes into the journal and ends in a result. -/
inductive Reaction (τ η α : Type) where
  | done (result : α)
  | note (entry : η) (next : Reaction τ η α)
  | post (e : Event) (next : Reaction τ η α)
  | queue (conn : ConnId) (command : Command)
      (next : Except LinkError CommandHandle → Reaction τ η α)
  | queueTo (peer : String) (command : Command)
      (next : Except LinkError CommandHandle → Reaction τ η α)
  | look (next : Connections τ → Reaction τ η α)

/-- What came of a reaction. -/
structure Reacted (τ η α : Type) where
  result : α
  connections : Connections τ
  /-- The events posted, in their order. -/
  posted : List Event := []
  notes : List η := []

namespace Reaction

variable {τ η α β : Type}

def bind : Reaction τ η α → (α → Reaction τ η β) → Reaction τ η β
  | done a, f => f a
  | note entry next, f => note entry (next.bind f)
  | post e next, f => post e (next.bind f)
  | queue conn command next, f => queue conn command fun r => (next r).bind f
  | queueTo peer command next, f => queueTo peer command fun r => (next r).bind f
  | look next, f => look fun t => (next t).bind f

instance : Monad (Reaction τ η) where
  pure := done
  bind := bind

def run : Reaction τ η α → Connections τ → Reacted τ η α
  | done result, connections => { result, connections }
  | note entry next, t =>
    let r := next.run t
    { r with notes := entry :: r.notes }
  | post e next, t =>
    let r := next.run t
    { r with posted := e :: r.posted }
  | queue conn command next, t =>
    let (result, t) := t.queueCommand conn command
    (next result).run t
  | queueTo peer command next, t =>
    let (result, t) := t.queueCommandTo peer command
    (next result).run t
  | look next, t => (next t).run t

end Reaction

/-! ## Delivery -/

/-- The listeners with their states, the connections they act on, and what they noted. -/
structure Stage (τ ℓ η : Type) where
  listeners : List ℓ
  connections : Connections τ
  journal : List η := []

namespace Bus

variable {τ ℓ η : Type}

/-- How a listener handles an event. -/
abbrev React (τ ℓ η : Type) := ℓ → Event → Reaction τ η ℓ

/-- Lets one listener handle an event. Gives the events it posts. -/
def tell (react : React τ ℓ η) (e : Event) (index : Nat) (s : Stage τ ℓ η) :
    List Event × Stage τ ℓ η :=
  match s.listeners[index]? with
  | none => ([], s)
  | some listener =>
    let r := (react listener e).run s.connections
    (r.posted, ⟨s.listeners.set index r.result, r.connections, s.journal ++ r.notes⟩)

/-- Delivers an event with so many levels left below it. -/
def deliverWithin (react : React τ ℓ η) : Nat → Stage τ ℓ η → Event → Stage τ ℓ η
  | 0, s, _ => s
  | depth + 1, s, e =>
    -- nobody is added while an event is on its way, so the listeners are counted once
    (List.range s.listeners.length).foldl
      (fun s index =>
        let (posted, s) := tell react e index s
        posted.foldl (deliverWithin react depth) s)
      s

/-- The levels that an event and what it provokes can reach down. -/
def maxDepth : Nat := 32

def deliver (react : React τ ℓ η) (s : Stage τ ℓ η) (e : Event) : Stage τ ℓ η :=
  deliverWithin react maxDepth s e

end Bus

end Observatory
