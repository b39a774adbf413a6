import Mathlib.Logic.Function.Basic
import Mathlib.Logic.Relation
import Observatory.Proofs.Connection.Owner
import Observatory.Proofs.Connection.Written
/-!
# Sessions

Two connections, each the peer of the other, and between them two channels of bytes that keep
the order. Owners do what they like, and bytes arrive in chunks of any size. Beside the bytes a
session keeps the lines that one side wrote and the other has not processed, and which of them
are copies of commands.

* `Session.Step` — one thing that happens.
* `Session.Safe` — at most one request or reply of a side is on its way.
-/

namespace Observatory

/-- The two ends of a session. -/
inductive Side where
  | near
  | far
  deriving DecidableEq

/-- The other end. -/
def Side.other : Side → Side
  | near => far
  | far => near

@[simp] theorem Side.other_other (x : Side) : x.other.other = x := by
  cases x <;> rfl

@[simp] theorem Side.other_ne (x : Side) : x.other ≠ x := by
  cases x <;> simp [other]

@[simp] theorem Side.ne_other (x : Side) : x ≠ x.other := by
  cases x <;> simp [other]

theorem Side.eq_or_eq_other (x y : Side) : y = x ∨ y = x.other := by
  cases x <;> cases y <;> simp [other]

/-! ## Lines on their way -/

/-- A line that was written and not processed. -/
structure Parcel where
  line : Bytes
  /-- The command that the line is a copy of, if it is one. -/
  request : Option CommandHandle := none

namespace Parcel

/-- The line would be taken for a reply. -/
def isReply (p : Parcel) : Bool := (readLine p.line).any Record.isReply

/-- The line would be taken for a request. -/
def asks (p : Parcel) : Bool := (readLine p.line).any Record.isRequest

/-- Lines of which the first may be a copy of a command. -/
def label (request : Option CommandHandle) : List Bytes → List Parcel
  | [] => []
  | line :: lines => ⟨line, request⟩ :: lines.map (⟨·, none⟩)

end Parcel

namespace Connection

variable {τ σ : Type}

/-- The command that one connection has in flight and the other has not. -/
def newFlight (c d : Connection τ) : Option CommandHandle :=
  if d.queue.inFlight = c.queue.inFlight then none else d.queue.inFlight.map Queued.handle

/-- The lines that were written between two states of a connection. When a command went in flight
in between, the first of them is its copy. -/
def written (c d : Connection τ) : List Parcel :=
  Parcel.label (newFlight c d) (Framing.cut (d.output.drop c.output.length)).1

/-- How many of the frames a connection processes before it is closed, and what it writes. -/
def follow (dev : Device σ) : Turn τ σ → List Framing.Frame → Nat × List Parcel
  | _, [] => (0, [])
  | t, frame :: frames =>
    if t.conn.isClosed then (0, [])
    else
      let next := processFrame dev t frame
      let (count, parcels) := follow dev next frames
      (count + 1, written t.conn next.conn ++ parcels)

/-- How many lines a connection processes when bytes arrive, and what it writes. -/
def taken (dev : Device σ) (now : Instant) (bytes : Bytes) (t : Turn τ σ) : Nat × List Parcel :=
  let (frames, input) := t.conn.input.push bytes
  follow dev (t.onConn fun c => { c with lastActivity := now, lastKeepalive := none, input }) frames

end Connection

/-! ## What owners do -/

/-- What an owner asks of a connection. -/
inductive Operation (τ : Type) where
  | queue (urgent : Bool) (command : Command)
  | push (v : Value)
  | pushAll (values : Registry)
  | broadcast (values : Registry)
  /-- Sends a status word, a word of blocked operations or a message. -/
  | tell (r : Record)
  | idle (now : Instant)
  | poll (answer : Connection.ConnectAnswer τ) (now : Instant)
  | close (reason : CloseReason)

namespace Operation

variable {τ : Type}

/-- What an operation makes of a connection. -/
def apply (c : Connection τ) : Operation τ → Connection τ
  | queue urgent command => (c.queueCommand urgent command).2
  | push v => c.sendValue v
  | pushAll values => c.sendAll values
  | broadcast values => c.broadcastDirty values
  | tell r => c.send r
  | idle now => c.idle now
  | poll answer now => (c.pollConnect answer now).2
  | close reason => c.close reason

/-- Commands have an opcode that is no reply code, and what is told is news. No owner gives a
reply that nobody asked for as the reason of a close. -/
def Allowed : Operation τ → Prop
  | queue _ command => Record.IsOpcode command.opcode
  | tell r => r.IsNews
  | close reason => reason ≠ .protocol .unexpectedReply
  | _ => True

end Operation

/-! ## Sessions -/

/-- Two connections and what is on its way between them. -/
structure Session (τ : Type) where
  conn : Side → Connection τ
  /-- The bytes that left the output of a side and did not reach the other. -/
  channel : Side → Bytes := fun _ => []
  /-- The lines that a side wrote and the other has not processed. -/
  unread : Side → List Parcel := fun _ => []

namespace Session

variable {τ σ : Type}

/-- A side does what its owner asks. -/
def operate (x : Side) (op : Operation τ) (s : Session τ) : Session τ :=
  let c := s.conn x
  let d := op.apply c
  { s with
    conn := Function.update s.conn x d
    unread := Function.update s.unread x (s.unread x ++ Connection.written c d) }

/-- Bytes leave the output of a side. -/
def carry (x : Side) (count : Nat) (s : Session τ) : Session τ :=
  let c := s.conn x
  { s with
    conn := Function.update s.conn x { c with output := c.output.drop count }
    channel := Function.update s.channel x (s.channel x ++ c.output.take count) }

/-- A side takes a chunk of what the other sent. -/
def receive (x : Side) (dev : Device σ) (own : Local σ) (now : Instant) (size : Nat)
    (s : Session τ) : Session τ :=
  let chunk := (s.channel x.other).take size
  let taken := Connection.taken dev now chunk ⟨s.conn x, own⟩
  { conn := Function.update s.conn x (Connection.receive dev now chunk ⟨s.conn x, own⟩).conn
    channel := Function.update s.channel x.other ((s.channel x.other).drop size)
    unread := Function.update (Function.update s.unread x (s.unread x ++ taken.2)) x.other
      ((s.unread x.other).drop taken.1) }

/-- One thing that happens. -/
inductive Step : Session τ → Session τ → Prop
  | operate {s : Session τ} (x : Side) {op : Operation τ} (h : op.Allowed) :
    Step s (s.operate x op)
  | carry {s : Session τ} (x : Side) (count : Nat) : Step s (s.carry x count)
  | receive {s : Session τ} (x : Side) {σ : Type} (dev : Device σ) (own : Local σ)
    (now : Instant) (size : Nat) : Step s (s.receive x dev own now size)

/-- A session that has just begun. -/
structure IsStart (s : Session τ) : Prop where
  conn : ∀ x, Connection.IsNew (s.conn x)
  channel : ∀ x, s.channel x = []
  unread : ∀ x, s.unread x = []

/-- How many copies of commands of a side are on their way. -/
def requests (s : Session τ) (x : Side) : Nat := (s.unread x).countP fun p => p.request.isSome

/-- How many replies are on their way to a side. -/
def replies (s : Session τ) (x : Side) : Nat := (s.unread x.other).countP Parcel.isReply

/-- At most one request or reply of a side is on its way, and no reply comes unasked. -/
structure Safe (s : Session τ) : Prop where
  /-- The unread lines are what the other side has still to take, as long as it is not closed. -/
  lines : ∀ x, (s.conn x.other).isClosed = false →
    Framing.Awaits (s.conn x.other).input (s.channel x ++ (s.conn x).output)
      ((s.unread x).map Parcel.line)
  expected : ∀ x id name, .connectionClosed id name (.protocol .unexpectedReply) ∉
    (s.conn x).events
  /-- Only copies of commands are taken for requests. -/
  asked : ∀ x, (s.conn x).isClosed = false →
    ∀ p ∈ s.unread x, p.asks = true → p.request.isSome = true
  inFlight : ∀ x q, (s.conn x).isClosed = false → (s.conn x).queue.inFlight = some q →
    s.requests x + s.replies x ≤ 1 ∧
    ∀ p ∈ s.unread x, p.request.isSome = true →
      p.request = some q.handle ∧ p.line = lineBytes q.command.encode
  idle : ∀ x, (s.conn x).isClosed = false → (s.conn x).queue.inFlight = none →
    s.requests x = 0 ∧ s.replies x = 0

end Session

end Observatory
