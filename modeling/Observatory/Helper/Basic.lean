import Observatory.Helper.Exit
import Observatory.Record.Framing
import Observatory.Time
/-!
# Helper processes

What an endpoint knows of a child process behind a connection: when it must have ended, what it
wrote to its error stream, and whether its end was reported and its exit status collected. What
the endpoint asks of the system, and what it tells the owner of the child, are kept as data.
-/

namespace Observatory

/-- The number of a process. -/
abbrev Pid := Nat

/-- A signal for one process, or for the whole group that it leads. -/
structure SignalRequest where
  pid : Pid
  group : Bool
  signal : Signal
  deriving DecidableEq

/-- What the owner of a child is told. -/
inductive HelperReport where
  | childEnd (conn : Nat) (exit : ChildExit)
  | errorLine (conn : Nat) (line : String)
  deriving DecidableEq

/-- A child process behind a connection; `τ` is the type of byte streams. -/
structure Helper (τ : Type) where
  pid : Pid
  path : String
  deadline : Option Instant
  /-- Whether the child reads commands. -/
  hasInput : Bool
  /-- The end was reported. -/
  ended : Bool := false
  /-- The exit status was collected. -/
  reaped : Bool := false
  /-- Its error stream, until it ends. -/
  errors : Option τ
  errorLines : Framing := { limit := 65536 }
  /-- Signals to be sent. -/
  signals : List SignalRequest := []
  /-- What the owner has not been told yet. -/
  reports : List HelperReport := []

namespace Helper

variable {τ : Type}

def deadlinePassed (now : Instant) (h : Helper τ) : Bool :=
  !h.ended && match h.deadline with
    | some deadline => deadline ≤ now
    | none => false

def signal (group : Bool) (s : Signal) (h : Helper τ) : Helper τ :=
  { h with signals := h.signals ++ [⟨h.pid, group, s⟩] }

/-- Reports the end, once. True when it had not been reported before. -/
def finish (conn : Nat) (exit : ChildExit) (h : Helper τ) : Bool × Helper τ :=
  if h.ended then (false, h)
  else (true, { h with ended := true, reports := h.reports ++ [.childEnd conn exit] })

/-- A child that is given up before its end was seen is interrupted. -/
def abandon (h : Helper τ) : List SignalRequest :=
  if h.ended || h.reaped then [] else [⟨h.pid, false, .int⟩]

end Helper

end Observatory
