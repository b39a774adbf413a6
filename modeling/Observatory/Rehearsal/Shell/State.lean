import Observatory.Helper.Basic
import Observatory.Number.Integer
import Observatory.Rehearsal.Paths
import Observatory.Rehearsal.Shell.Script
import Observatory.Text.Utf8
/-!
# Shells

A shell is held between two steps: its variables and descriptors, the signals it knows of, and the
list of what it still has to do. What it wants from the system it asks for, and goes on with the
answer; a shell that has to wait just asks again.
-/

namespace Observatory.Rehearsal

/-- Where a descriptor leads. -/
inductive Target where
  | null
  /-- A pipe of the child that an endpoint started; its slot is the descriptor it was made for. -/
  | pipe (child : Pid) (slot : Nat)
  /-- The end of a conduit between processes that is read. -/
  | reading (conduit : Nat)
  /-- The end of a conduit between processes that is written to. -/
  | writing (conduit : Nat)
  deriving DecidableEq

/-- The descriptors of a process. -/
abbrev Files := List (Nat × Target)

namespace Files

/-- Makes a descriptor lead somewhere. -/
def lead (descriptor : Nat) (target : Target) (files : Files) : Files :=
  (descriptor, target) :: files.filter fun p => p.1 != descriptor

def close (descriptor : Nat) (files : Files) : Files := files.filter fun p => p.1 != descriptor

/-- From here on descriptors belong to one process only. -/
def own : Nat := 10

/-- The descriptors that other programs take over. -/
def shared (files : Files) : Files := files.filter fun p => p.1 < own

end Files

namespace Shell

/-! ## What is to be done -/

inductive Frame where
  | run (script : Script)
  /-- A command with its arguments. -/
  | invoke (words : List String)
  /-- A program with its arguments; the first one is the name it goes by. -/
  | program (name : String) (words : List String)
  /-- The other command of a pair, if the status is as it should be. -/
  | onlyIf (success : Bool) (script : Script)
  | negate
  | branch (yes no : Script)
  /-- A loop whose test was done; with the status of its body. -/
  | loop (success : Bool) (test body : Script) (status : Nat)
  /-- A loop whose body was done. -/
  | again (success : Bool) (test body : Script)
  | each (name : String) (words : List String) (body : Script)
  /-- Gives descriptors back. -/
  | restore (files : Files)
  /-- Gives variables back, and the names of those that programs see. -/
  | reassign (values : List (String × Option String)) (exported : List String)
  /-- The end of a function; the arguments are those outside of it. -/
  | returned (args : List String)
  /-- Sets the status. -/
  | answer (status : Nat)
  /-- The end of what a signal made the shell do. -/
  | trapped (status : Nat)
  /-- Ends a strict shell whose last command failed. -/
  | check
  /-- Reads a line into variables. -/
  | readLine (raw : Bool) (names : List String) (line : Bytes)
  /-- Copies what can be read. -/
  | copy
  | print (descriptor : Nat) (bytes : Bytes)
  /-- Reads what a process prints. -/
  | capture (descriptor : Nat) (child : Pid) (text : Bytes) (script : Script)
  /-- Runs a script with what was printed; the status is that before the printing. -/
  | captured (status : Nat) (text : Bytes) (script : Script)
  /-- Waits for a process that runs in place of the shell. -/
  | wait (pid : Pid)
  /-- Waits for processes that run beside the shell, or for a signal. Who waits for all processes
  does not ask how they end. -/
  | await (all : Bool) (pids : List Pid)
  /-- Sends a signal to processes; with the status so far. -/
  | signals (signal : Option Signal) (targets : List String) (status : Nat)
  /-- Reads commands and runs them. -/
  | commands (line : Bytes)
  /-- A script that was not parsed yet. -/
  | script (text : String)
  /-- Ends with the status of the last command. -/
  | leave

namespace Frame

def isLoop : Frame → Bool
  | again .. | each .. => true
  | _ => false

def isReturn : Frame → Bool
  | returned _ => true
  | _ => false

def isRestoring : Frame → Bool
  | restore _ | reassign .. => true
  | _ => false

/-- Whether this is to be done however a command ends. -/
def isKept : Frame → Bool
  | restore _ | reassign .. | returned _ | trapped _ => true
  | _ => false

/-- Whether the command before is a test. -/
def isTest : Frame → Bool
  | onlyIf .. | negate | branch .. | loop .. => true
  | _ => false

end Frame

end Shell

/-- A shell between two steps. -/
structure Shell where
  /-- Its process. -/
  process : Pid
  /-- The process that its scripts take for theirs. -/
  pid : Pid
  name : String
  args : List String := []
  bindings : List (String × String) := []
  /-- The variables that programs see. -/
  exported : List String := []
  functions : List (String × Shell.Script) := []
  files : Files
  /-- Signals that do nothing. -/
  ignored : List Signal := []
  /-- Signals that run a script. -/
  traps : List (Signal × Shell.Script) := []
  /-- What runs before the end. -/
  onExit : Option Shell.Script := none
  /-- Signals with a script that arrived. -/
  arrived : List Signal := []
  status : Nat := 0
  /-- The status of what was printed for the running command. -/
  printing : Nat := 0
  /-- The status from before a signal made the shell do something. -/
  before : Option Nat := none
  /-- The processes that run beside it, and how they ended; the last one comes first. -/
  jobs : List (Pid × Option Nat) := []
  /-- Ends when a command fails. -/
  strict : Bool := false
  todo : List Shell.Frame

namespace Shell

/-- What a shell asks of the system, and how it goes on. -/
inductive Demand where
  | proceed (s : Shell)
  | write (descriptor : Nat) (bytes : Bytes) (next : Bool → Shell)
  | read (descriptor : Nat) (next : Option UInt8 → Shell)
  /-- A negative number is that of a group. -/
  | signal (target : Int) (signal : Option Signal) (next : Bool → Shell)
  | pause (d : Duration) (s : Shell)
  /-- Starts processes, and makes so many conduits for them; the first conduit's number is told. -/
  | fork (conduits : Nat) (children : Nat → List (Pid → Shell)) (next : Nat → List Pid → Shell)
  | wait (pid : Pid) (next : Option ChildExit → Shell)
  | exit (status : Nat)

/-- Adds to what is to be done, in front of all else. -/
def push (frames : List Frame) (s : Shell) : Shell := { s with todo := frames ++ s.todo }

/-- Ends a command. -/
def answer (status : Nat) (s : Shell) : Shell := { s with status }

/-- The status of a test. -/
def verdict (success : Bool) (s : Shell) : Shell := s.answer (if success then 0 else 1)

def leaveWith (status : Nat) (s : Shell) : Shell := { s with status, todo := [.leave] }

/-- Leaves out what is to be done in front of something, except for what has to be done. That
something is kept or left out, too. -/
def unwind (keep : Bool) (p : Frame → Bool) (s : Shell) : Shell :=
  let (inner, rest) := s.todo.span fun f => !p f
  { s with todo := inner.filter Frame.isKept ++ if keep then rest else rest.tail }

/-- Whether nothing is to be done but to leave: a program can take the place of the shell. -/
def isLast (s : Shell) : Bool :=
  s.traps.isEmpty && s.onExit.isNone &&
    match s.todo.dropWhile Frame.isRestoring with
    | [.leave] => true
    | _ => false

/-! ## Complaints -/

/-- A line with the name of the shell. -/
def complaint (text : String) (s : Shell) : Bytes := Text.Utf8.encode s!"{s.name}: 1: {text}\n"

def complain (status : Nat) (text : String) (s : Shell) : Demand :=
  .write 2 (s.complaint text) fun _ => s.answer status

def fail (text : String) (s : Shell) : Demand := .write 2 (s.complaint text) fun _ => s.leaveWith 2

/-! ## Variables -/

def assign (name value : String) (s : Shell) : Shell :=
  { s with bindings := (name, value) :: s.bindings.filter fun p => p.1 != name }

def unassign (name : String) (s : Shell) : Shell :=
  { s with
    bindings := s.bindings.filter fun p => p.1 != name
    exported := s.exported.filter (· != name) }

def reassign (values : List (String × Option String)) (exported : List String) (s : Shell) :
    Shell :=
  let s := values.foldl (fun s (name, value) => match value with
    | some value => s.assign name value
    | none => s.unassign name) s
  { s with exported }

/-! ## Processes -/

/-- A process that starts as a copy of a shell. -/
def offspring (files : Files) (todo : List Frame) (s : Shell) (process : Pid) : Shell :=
  { s with
    process, files := files.shared, traps := [], onExit := none, arrived := [], before := none
    jobs := s.jobs.map fun j => (j.1, some 127), todo }

/-- The shell that a program runs in, in place of another one. -/
def become (name : String) (words : List String) (s : Shell) : Shell :=
  { process := s.process, pid := s.process, name := words.headD ""
    bindings := s.bindings.filter fun p => s.exported.contains p.1
    exported := s.exported, files := s.files.shared, ignored := s.ignored
    todo := [.program name words, .leave] }

end Shell

end Observatory.Rehearsal
