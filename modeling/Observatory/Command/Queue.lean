import Observatory.Command.Basic
/-!
# Command queues

The commands for one peer, first in, first out, with at most one of them in flight. A command
that is done is reported with its outcome, once; those who wait for the outcome are told at the
same moment.
-/

namespace Observatory

/-- The number of a connection within its endpoint. -/
abbrev ConnId := Nat

/-- The name of a command: its connection and its place among all commands of that connection. -/
structure CommandHandle where
  connection : ConnId
  sequence : Nat
  deriving DecidableEq

/-- How a command ended. -/
inductive Outcome where
  | ok
  | failed (reason : String)
  deriving DecidableEq

namespace Outcome

def isOk : Outcome → Bool
  | ok => true
  | failed _ => false

end Outcome

/-- The report on a command that is done. -/
structure Completion where
  handle : CommandHandle
  line : String
  origin : Option String
  outcome : Outcome
  /-- The code of the peer's reply, or that of a failure of the link. -/
  code : Int32
  deriving DecidableEq

/-- A command under its name. -/
structure Queued where
  handle : CommandHandle
  command : Command
  deriving DecidableEq

namespace Queued

def complete (q : Queued) (outcome : Outcome) (code : Int32) : Completion :=
  ⟨q.handle, q.command.line, q.command.origin, outcome, code⟩

end Queued

/-- How many commands were taken in, and how they ended. -/
structure QueueStats where
  queued : Nat := 0
  ok : Nat := 0
  failed : Nat := 0
  requeued : Nat := 0
  deriving DecidableEq

/-- The commands for one peer. -/
structure CommandQueue where
  connection : ConnId
  /-- The number of the command named last. -/
  lastSequence : Nat := 0
  waiting : List Queued := []
  inFlight : Option Queued := none
  stats : QueueStats := {}
  /-- Reports on tracked commands that nobody has taken yet. -/
  notices : List Completion := []

namespace CommandQueue

/-- No more commands than this may wait. -/
def capacity : Nat := 64

def isFull (q : CommandQueue) : Bool := capacity ≤ q.waiting.length

/-- Names a command. The name is used up even when the queue turns out to be full. -/
def wrap (c : Command) (q : CommandQueue) : Queued × CommandQueue :=
  (⟨⟨q.connection, q.lastSequence + 1⟩, c⟩, { q with lastSequence := q.lastSequence + 1 })

/-- Lets a command wait behind all others, or in front of them when it is urgent. A full queue
takes none. -/
def insert (urgent : Bool) (c : Command) (q : CommandQueue) :
    Option CommandHandle × CommandQueue :=
  let (queued, q) := q.wrap c
  if q.isFull then (none, q)
  else
    (some queued.handle, { q with
      waiting := if urgent then queued :: q.waiting else q.waiting ++ [queued]
      stats := { q.stats with queued := q.stats.queued + 1 } })

/-- Sends the first waiting command on its way, unless another one is in flight. -/
def startNext (q : CommandQueue) : Option Queued × CommandQueue :=
  match q.inFlight, q.waiting with
  | none, first :: rest => (some first, { q with inFlight := some first, waiting := rest })
  | _, _ => (none, q)

def count (outcome : Outcome) (s : QueueStats) : QueueStats :=
  if outcome.isOk then { s with ok := s.ok + 1 } else { s with failed := s.failed + 1 }

/-- Reports on one command and tells those who wait for it. -/
def finish (queued : Queued) (outcome : Outcome) (code : Int32) (q : CommandQueue) :
    Completion × CommandQueue :=
  let completion := queued.complete outcome code
  (completion, { q with
    stats := count outcome q.stats
    notices := if queued.command.tracked then q.notices ++ [completion] else q.notices })

def complete (outcome : Outcome) (code : Int32) (q : CommandQueue) :
    Option Completion × CommandQueue :=
  match q.inFlight with
  | none => (none, q)
  | some queued =>
    let (completion, q) := { q with inFlight := none }.finish queued outcome code
    (some completion, q)

/-- Puts the command in flight back in front of all that wait. A full queue leaves it in flight. -/
def requeue (q : CommandQueue) : Bool × CommandQueue :=
  match q.inFlight with
  | none => (false, q)
  | some queued =>
    if q.isFull then (false, q)
    else (true, { q with
      inFlight := none
      waiting := queued :: q.waiting
      stats := { q.stats with requeued := q.stats.requeued + 1 } })

/-- The commands that are not done: the one in flight, then those that wait. -/
def pending (q : CommandQueue) : List Queued := q.inFlight.toList ++ q.waiting

/-- Ends the given commands, one after another, each with the same failure. -/
def failEach (reason : String) (code : Int32) :
    List Queued → CommandQueue → List Completion × CommandQueue
  | [], q => ([], q)
  | queued :: rest, q =>
    let (completion, q) := q.finish queued (.failed reason) code
    let (completions, q) := failEach reason code rest q
    (completion :: completions, q)

/-- Fails the command in flight and then every waiting one. -/
def failAll (reason : String) (code : Int32) (q : CommandQueue) :
    List Completion × CommandQueue :=
  failEach reason code q.pending { q with inFlight := none, waiting := [] }

def takeNotices (q : CommandQueue) : List Completion × CommandQueue :=
  (q.notices, { q with notices := [] })

def size (q : CommandQueue) : Nat := q.pending.length

end CommandQueue

end Observatory
