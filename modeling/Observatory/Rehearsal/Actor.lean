import Observatory.Script
/-!
# Rehearsed listeners

Listeners that note every event they hear. Some of them act on it as a rule says; others run
observation scripts and note nothing.
-/

namespace Observatory.Rehearsal

inductive Addressee where
  | peer (name : String)
  | connection (id : ConnId)

/-- What a listener does when it hears of a kind of event. -/
structure Rule where
  /-- The number of the kind of event. -/
  tag : Nat
  /-- The target the event has to name. -/
  target : Option UInt32 := none
  posts : List Event := []
  /-- The commands to queue; a line without a command is left out. -/
  commands : List (Addressee × Option Command) := []
  /-- The peers to look for. -/
  names : List String := []

inductive Note where
  | heard (listener : Nat) (e : Event)
  | queued (listener : Nat) (result : Except LinkError (Option CommandHandle))
  | looked (listener : Nat) (found : Option ConnId)

inductive Part where
  | script (r : ScriptRunner)
  /-- Takes note only. -/
  | record
  /-- Posts every event again. -/
  | echo
  | rule (r : Rule)

/-- A listener under its number. -/
structure Actor where
  index : Nat
  part : Part

namespace Actor

variable {τ : Type}

/-- Queues the commands of a rule and notes what became of them. -/
def queueAll (index : Nat) : List (Addressee × Option Command) → Reaction τ Note Unit
  | [] => .done ()
  | (_, none) :: rest => .note (.queued index (.ok none)) (queueAll index rest)
  | (.peer name, some c) :: rest =>
    .queueTo name c fun result => .note (.queued index (some <$> result)) (queueAll index rest)
  | (.connection id, some c) :: rest =>
    .queue id c fun result => .note (.queued index (some <$> result)) (queueAll index rest)

/-- Looks for the peers of a rule and notes who was found. -/
def lookFor (index : Nat) : List String → Reaction τ Note Unit
  | [] => .done ()
  | name :: rest =>
    .look fun t => .note (.looked index ((t.byName? name).map (·.id))) (lookFor index rest)

def postAll : List Event → Reaction τ Note Unit
  | [] => .done ()
  | e :: rest => .post e (postAll rest)

def applies (r : Rule) (e : Event) : Bool :=
  r.tag == e.tag && (r.target.isNone || e.target? == r.target)

def act (index : Nat) (e : Event) : Part → Reaction τ Note Unit
  | .echo => .post e (.done ())
  | .rule r =>
    if applies r e then do
      postAll r.posts
      queueAll index r.commands
      lookFor index r.names
    else .done ()
  | _ => .done ()

def react (a : Actor) (e : Event) : Reaction τ Note Actor :=
  match a.part with
  | .script r => do return { a with part := .script (← r.react e) }
  | part => .note (.heard a.index e) do
    act a.index e part
    return a

end Actor

end Observatory.Rehearsal
