import Observatory.Command.Queue
import Observatory.Device.Status
import Observatory.Helper.Exit
import Observatory.Record.Message
/-!
# Events

What happens on the connections of an endpoint and in the observation that it runs. Every kind
of event has a number.
-/

namespace Observatory

/-- A sequence of records that the protocol does not allow. -/
inductive ProtocolError where
  | unexpectedReply
  | tooManyParseErrors (count : Nat)
  deriving DecidableEq

namespace ProtocolError

def message : ProtocolError → String
  | unexpectedReply => "reply received with no command outstanding"
  | tooManyParseErrors count => s!"{count} consecutive malformed records"

end ProtocolError

/-- Why a connection was closed. -/
inductive CloseReason where
  | requested
  | peerClosed
  | timeout
  | io (reason : String)
  | protocol (e : ProtocolError)
  | childEnded
  deriving DecidableEq

inductive Event where
  | connectionEstablished (conn : ConnId) (name : String)
  | connectionClosed (conn : ConnId) (name : String) (reason : CloseReason)
  | commandOk (completion : Completion)
  | commandFailed (completion : Completion)
  /-- The copy of a value of a peer was pushed. -/
  | valueChanged (conn : ConnId) (name : String)
  /-- A peer changed one of our values. -/
  | valueSet (conn : ConnId) (name : String)
  | statusChanged (conn : ConnId) (old new : DeviceStatus)
  | message (conn : ConnId) (m : Message)
  | childEnded (conn : ConnId) (pid : Nat) (exit : ChildExit)
  | killAll
  | setTarget (target : UInt32)
  | observe (target : UInt32)
  | scriptStarted (target : UInt32)
  | scriptEnded (target : UInt32)
  deriving DecidableEq

namespace Event

/-- The number of a kind of event. -/
def tag : Event → Nat
  | connectionEstablished _ _ => 1
  | connectionClosed _ _ _ => 2
  | setTarget _ => 3
  | observe _ => 4
  | valueChanged _ _ => 5
  | valueSet _ _ => 6
  | statusChanged _ _ _ => 7
  | message _ _ => 8
  | childEnded _ _ _ => 9
  | commandOk _ => 16
  | commandFailed _ => 17
  | scriptEnded _ => 1050
  | scriptStarted _ => 1052
  | killAll => 1053

/-- The target that an event of the observation names. -/
def target? : Event → Option UInt32
  | setTarget target => some target
  | observe target => some target
  | scriptStarted target => some target
  | scriptEnded target => some target
  | _ => none

end Event

/-- The event that reports a command that is done. -/
def Completion.event (c : Completion) : Event :=
  if c.outcome.isOk then .commandOk c else .commandFailed c

end Observatory
