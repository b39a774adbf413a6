import Observatory.Endpoint.Peers
import Observatory.Rehearsal.Shell.Run
/-!
# Rehearsed processes

The children of an endpoint and their own children: each runs its script, reads and writes the
pipes that lead to the endpoint, and ends by itself or by a signal. Time passes only when it is
told to.
-/

namespace Observatory.Rehearsal

/-! ## Processes -/

/-- A process. -/
structure Process where
  pid : Pid
  group : Pid
  /-- The process that started it; the children of an endpoint have none. -/
  parent : Option Pid := none
  shell : Shell
  stopped : Bool := false
  /-- Signals that arrived while it was stopped. -/
  pending : List Signal := []
  /-- It sleeps until then. -/
  wake : Instant := 0
  exit : Option ChildExit := none

namespace Process

def isAlive (p : Process) : Bool := p.exit.isNone

/-- Whether the system knows it: it is alive, or an endpoint may still ask for its exit. -/
def isKnown (p : Process) : Bool := p.isAlive || p.parent.isNone

def isReady (now : Instant) (p : Process) : Bool := p.isAlive && !p.stopped && p.wake ≤ now

def finish (exit : ChildExit) (p : Process) : Process := { p with exit := some exit }

/-- What a signal does to a process that is not stopped. -/
def strike (p : Process) (sig : Signal) : Process :=
  if p.shell.ignored.contains sig then p
  else if (p.shell.traps.lookup sig).isSome then
    { p with shell := { p.shell with arrived := p.shell.arrived ++ [sig] } }
  else if [.chld, .urg, .winch, .cont].contains sig then p
  else if [.tstp, .ttin, .ttou].contains sig then { p with stopped := true }
  else p.finish (.signaled sig)

/-- What a signal does. While a process is stopped, signals wait until it goes on. -/
def receive (sig : Signal) (p : Process) : Process :=
  if !p.isAlive then p
  else match sig with
    | .kill => p.finish (.signaled .kill)
    | .stop => { p with stopped := true }
    | .cont => (p.pending ++ [Signal.cont]).foldl strike { p with stopped := false, pending := [] }
    | sig => if p.stopped then { p with pending := p.pending ++ [sig] } else p.strike sig

end Process

/-! ## The system -/

/-- A pipe between an endpoint and its child. -/
structure Pipe where
  child : Pid
  /-- The descriptor of the child. -/
  slot : Nat
  content : Bytes := []
  /-- The endpoint holds its end. -/
  held : Bool := true

/-- A pipe between processes. -/
structure Conduit where
  number : Nat
  content : Bytes := []

/-- All processes and pipes. -/
structure System where
  /-- It starts a moment after the endpoint. -/
  clock : Instant := Duration.ofMillis 1
  processes : List Process := []
  pipes : List Pipe := []
  conduits : List Conduit := []
  nextPid : Pid := 1000
  nextConduit : Nat := 0

namespace System

def process? (pid : Pid) (sys : System) : Option Process :=
  sys.processes.find? fun p => p.pid == pid

def put (p : Process) (sys : System) : System :=
  { sys with processes := sys.processes.map fun q => if q.pid = p.pid then p else q }

def pipe? (child : Pid) (slot : Nat) (sys : System) : Option Pipe :=
  sys.pipes.find? fun p => p.child == child && p.slot == slot

def onPipe (child : Pid) (slot : Nat) (f : Pipe → Pipe) (sys : System) : System :=
  { sys with pipes := sys.pipes.map fun p => if p.child = child ∧ p.slot = slot then f p else p }

def onConduit (number : Nat) (f : Conduit → Conduit) (sys : System) : System :=
  { sys with conduits := sys.conduits.map fun c => if c.number = number then f c else c }

/-- Whether descriptors of some process lead to something. -/
def leadsTo (target : Target) (sys : System) : Bool :=
  sys.processes.any fun p => p.isAlive && p.shell.files.any fun f => f.2 == target

/-- Whether some process has a pipe open. -/
def isOpen (child : Pid) (slot : Nat) (sys : System) : Bool := sys.leadsTo (.pipe child slot)

/-! ## Signals and exits -/

/-- Whether a number stands for a process; a negative one stands for a group. -/
def isTarget (target : Int) (p : Process) : Bool :=
  p.isKnown && ((p.pid : Int) == target || (p.group : Int) == -target)

/-- Whether there is somebody to send a signal to. -/
def reaches (target : Int) (sys : System) : Bool := sys.processes.any (isTarget target)

def kill (target : Int) (sig : Signal) (sys : System) : System :=
  { sys with processes := sys.processes.map fun p =>
      if isTarget target p then p.receive sig else p }

/-- How a child of the endpoint ended, if it did. -/
def exit? (sys : System) (pid : Pid) : Option ChildExit :=
  match sys.process? pid with
  | some p => p.exit
  | none => some .lost

/-- Forgets processes whose exits were collected. -/
def collect (pids : List Pid) (sys : System) : System :=
  { sys with processes := sys.processes.filter fun p => !pids.contains p.pid }

/-! ## Starting processes -/

def add (parent : Option Pid) (group : Pid → Pid) (shell : Pid → Shell) (sys : System) :
    Pid × System :=
  let pid := sys.nextPid
  (pid, { sys with
    nextPid := pid + 1
    processes := sys.processes ++ [{ pid, group := group pid, parent, shell := shell pid }] })

def addAll (parent : Process) : List (Pid → Shell) → System → List Pid × System
  | [], sys => ([], sys)
  | shell :: shells, sys =>
    let (pid, sys) := sys.add (some parent.pid) (fun _ => parent.group) shell
    let (pids, sys) := addAll parent shells sys
    (pid :: pids, sys)

/-- Adds conduits, and tells the number of the first one. -/
def addConduits (count : Nat) (sys : System) : Nat × System :=
  (sys.nextConduit, { sys with
    nextConduit := sys.nextConduit + count
    conduits := sys.conduits ++
      (List.range count).map fun i => { number := sys.nextConduit + i } })

/-- The shell in which a program runs. -/
def shellFor (spec : HelperSpec) (name : String) (pid : Pid) : Shell :=
  let s : Shell := {
    process := pid, pid, name := spec.path
    files :=
      [(0, if spec.withInput then .pipe pid 0 else .null), (1, .pipe pid 1), (2, .pipe pid 2)]
    todo := [.program name (spec.path :: spec.args), .leave] }
  spec.env.foldl (fun s (key, value) =>
    { s.assign key value with exported := key :: s.exported }) s

/-- Starts a child of the endpoint, or says why it cannot be started. -/
def start (spec : HelperSpec) (sys : System) : Except String (Pid × System) :=
  if spec.path.contains '\x00' then .error "EINVAL: Invalid argument"
  else match placeOf spec.path with
    | .missing | .terminal => .error "ENOENT: No such file or directory"
    | .beyondFile => .error "ENOTDIR: Not a directory"
    | .plainFile => .error "EACCES: Permission denied"
    | .directory =>
      .error (if spec.holdsNul then "nul byte found in provided data"
        else "Permission denied (os error 13)")
    | .program name =>
      if spec.holdsNul then .error "nul byte found in provided data"
      else
        let (pid, sys) := sys.add none id (shellFor spec name)
        .ok (pid, { sys with pipes := sys.pipes ++ [⟨pid, 0, [], true⟩, ⟨pid, 1, [], true⟩,
          ⟨pid, 2, [], true⟩] })

/-! ## Running -/

/-- Writes to a descriptor. A pipe whose other end is gone raises a signal. -/
def write (p : Process) (descriptor : Nat) (bytes : Bytes) (next : Bool → Shell) (sys : System) :
    System :=
  let written := sys.put { p with shell := next true }
  let refused := { p with shell := next false }
  match p.shell.files.lookup descriptor with
  | none | some (.reading _) => sys.put refused
  | some .null => written
  | some (.pipe child slot) =>
    if (sys.pipe? child slot).any (·.held) then
      written.onPipe child slot fun pipe => { pipe with content := pipe.content ++ bytes }
    else sys.put (refused.receive .pipe)
  | some (.writing conduit) =>
    if sys.leadsTo (.reading conduit) then
      written.onConduit conduit fun c => { c with content := c.content ++ bytes }
    else sys.put (refused.receive .pipe)

/-- Reads a byte from a descriptor, if there is one or there never will be. -/
def read (p : Process) (descriptor : Nat) (next : Option UInt8 → Shell) (sys : System) :
    Option System :=
  let ended := some (sys.put { p with shell := next none })
  match p.shell.files.lookup descriptor with
  | some (.pipe child slot) =>
    match sys.pipe? child slot with
    | none => ended
    | some pipe =>
      match pipe.content with
      | b :: content =>
        some ((sys.put { p with shell := next (some b) }).onPipe child slot fun pipe =>
          { pipe with content })
      | [] => if pipe.held then none else ended
  | some (.reading conduit) =>
    match sys.conduits.find? fun c => c.number == conduit with
    | none => ended
    | some c =>
      match c.content with
      | b :: content =>
        some ((sys.put { p with shell := next (some b) }).onConduit conduit fun c =>
          { c with content })
      | [] => if sys.leadsTo (.writing conduit) then none else ended
  | _ => ended

/-- Runs one step of a process, unless it has to wait. -/
def serve (p : Process) (sys : System) : Option System :=
  let go (shell : Shell) (sys : System) : Option System := some (sys.put { p with shell })
  match p.shell.step with
  | .proceed s => go s sys
  | .write descriptor bytes next => some (sys.write p descriptor bytes next)
  | .read descriptor next => sys.read p descriptor next
  | .signal target sig next =>
    let sent := sys.put { p with shell := next (sys.reaches target) }
    some (match sig with
      | some sig => sent.kill target sig
      | none => sent)
  | .pause d s => some (sys.put { p with shell := s, wake := sys.clock + d })
  | .fork count children next =>
    let (first, sys) := sys.addConduits count
    let (pids, sys) := sys.addAll p (children first)
    go (next first pids) sys
  | .wait pid next =>
    match sys.process? pid with
    | none => go (next none) sys
    | some other =>
      match other.exit with
      | none => none
      | some exit => go (next (some exit)) (sys.collect [pid])
  | .exit status => some (sys.put (p.finish (.exited (status % 256))))

/-- Gives every process a turn. True when one of them got anywhere. -/
def round (sys : System) : Bool × System :=
  (sys.processes.map (·.pid)).foldl (fun (moved, sys) pid =>
    match sys.process? pid with
    | none => (moved, sys)
    | some p =>
      if p.isReady sys.clock then
        match sys.serve p with
        | some sys => (true, sys)
        | none => (moved, sys)
      else (moved, sys)) (false, sys)

/-- Runs until every process waits, at most so many rounds. -/
def settle : Nat → System → System
  | 0, sys => sys
  | rounds + 1, sys =>
    let (moved, sys) := sys.round
    if moved then settle rounds sys else sys

def pass (d : Duration) (sys : System) : System := { sys with clock := sys.clock + d }

end System

end Observatory.Rehearsal
