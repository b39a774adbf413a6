import Observatory.Number.Integer
import Observatory.Time
/-!
# Requests of the command line client

The client connects to one device and either lists its values, prints one of them, changes one,
sends a command, or shows whatever the device announces.
-/

namespace Observatory.Client

inductive Task where
  | values
  | get (name : String)
  | set (name op : String) (tokens : List String)
  | command (line : String)
  | watch
  deriving DecidableEq

/-- A task, and where and how to carry it out. -/
structure Request where
  host : String
  port : Nat
  /-- How long to wait for a reply. -/
  timeout : Duration
  /-- Print what is being done. -/
  verbose : Bool := false
  task : Task
  deriving DecidableEq

namespace Request

def address (r : Request) : String := s!"{r.host}:{r.port}"

end Request

/-- Seconds that fit in a word of 64 bits. -/
def seconds? (text : String) : Option Nat :=
  (Number.readUnsigned text.toList).filter fun n => n < UInt64.size

end Observatory.Client
