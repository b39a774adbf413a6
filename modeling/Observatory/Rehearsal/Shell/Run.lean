import Observatory.Rehearsal.Shell.Builtins
/-!
# Running scripts

A shell runs in small steps: it takes the first of what it has to do, and puts what follows from it
in its place. So it can be held between any two steps.
-/

namespace Observatory.Rehearsal.Shell

/-! ## Other processes -/

def forkOne (child : Pid → Shell) (next : Pid → Shell) (s : Shell) : Demand :=
  .fork 0 (fun _ => [child]) fun _ pids => pids.head?.elim s next

/-- The frames of a process that only runs a script. -/
def only (script : Script) : List Frame := [.run script, .leave]

/-- Starts the parts of a pipeline, each reading what the one before it writes, and waits for them;
the last one gives the status. -/
def runPipeline (parts : List Script) (s : Shell) : Demand :=
  let conduits := parts.length - 1
  .fork conduits
    (fun first => parts.mapIdx fun i part =>
      let files := if i = 0 then s.files else s.files.lead 0 (.reading (first + i - 1))
      let files := if i = conduits then files else files.lead 1 (.writing (first + i))
      s.offspring files (only part))
    fun _ pids => s.push (pids.map .wait)

/-- Runs a script in a process of its own, and collects what it prints for another script. -/
def runPrinting (text : List Char) (script : Script) (s : Shell) : Demand :=
  .fork 1
    (fun conduit =>
      [s.offspring (s.files.lead 1 (.writing conduit)) [.script (String.ofList text), .leave]])
    fun conduit pids =>
      { s.push [.capture (Files.own + conduit) (pids.headD 0) [] script] with
        files := s.files.lead (Files.own + conduit) (.reading conduit) }

/-- Runs a script apart. A shell that has nothing else to do goes on as that. -/
def runApart (files : Files) (body : Script) (s : Shell) : Demand :=
  if s.isLast then .proceed (s.offspring files (only body) s.process)
  else s.forkOne (s.offspring files (only body)) fun pid => s.push [.wait pid]

/-- Runs a program. A shell that has nothing else to do becomes that program. -/
def start (name : String) (words : List String) (s : Shell) : Demand :=
  if s.isLast then .proceed (s.become name words)
  else
    s.forkOne (fun pid => { s with process := pid }.become name words) fun pid => s.push [.wait pid]

/-! ## Commands -/

/-- The program that a word names, or the status and the reason why it names none. -/
def findProgram (word : String) : Except (Nat × String) String :=
  if word.isEmpty then .error (127, "Permission denied")
  else match placeOf (if word.contains '/' then word else "/bin/" ++ word) with
    | .program name => .ok name
    | .directory | .plainFile => .error (126, "Permission denied")
    | _ => .error (127, "not found")

/-- Runs a command: one of the language, a function, one of the shell, or a program. -/
def invoke (words : List String) (s : Shell) : Demand :=
  let name := words.headD ""
  let args := words.tail
  if specials.contains name then s.runSpecial name args
  else match s.functions.lookup name with
    | some body => .proceed { s.push [.run body, .returned s.args] with args }
    | none =>
      if builtins.contains name then s.runBuiltin name args
      else match findProgram name with
        | .ok program => s.start program words
        | .error (status, reason) => s.complain status s!"{name}: {reason}"

def execute (words : List String) (s : Shell) : Demand :=
  let name := words.headD ""
  match findProgram name with
  | .ok program => .proceed (s.become program words)
  | .error (status, reason) =>
    .write 2 (s.complaint s!"exec: {name}: {reason}") fun _ => s.leaveWith status

/-- Runs a simple command. The values that are given to variables in front of a command last as
long as the command runs, unless it is a special one. -/
def runSimple (assignments : List (String × Word)) (words : List Word) (redirects : List Redirect)
    (s : Shell) : Demand :=
  let s := (words ++ assignments.map Prod.snd).foldl (fun s w => s.assignDefaults w) s
  let args := words.flatMap s.expand
  let plain := { s with printing := 0 }
  let bound := assignments.foldl (fun t (name, w) => t.assign name (t.expandWhole w)) plain
  let name := args.headD ""
  match s.redirected redirects with
  | .error reason =>
    if specials.contains name then plain.fail reason else plain.complain 2 reason
  | .ok files =>
    match args with
    | [] => .proceed (bound.answer s.printing)
    | ["exec"] => .proceed { bound.answer 0 with files }
    | "exec" :: words =>
      { bound with files, exported := assignments.map Prod.fst ++ s.exported }.execute words
    | args =>
      let restoring := if redirects.isEmpty then [] else [Frame.restore s.files]
      if assignments.isEmpty || specials.contains name then
        .proceed { bound.push (.invoke args :: restoring) with files }
      else
        let values := assignments.map fun a => (a.1, s.bindings.lookup a.1)
        .proceed { bound.push (.invoke args :: .reassign values s.exported :: restoring) with
          files, exported := assignments.map Prod.fst ++ s.exported }

def parts : Script → List Script
  | .pipeline first rest => first :: parts rest
  | script => [script]

/-- Lets a strict shell look at the status of what a command leads to. -/
def checked (s : Shell) : Shell := if s.strict then s.push [.check] else s

/-- Runs a script; where there is nothing to run, that succeeds. -/
def orSucceed (script : Script) (s : Shell) : Shell :=
  match script with
  | .skip => s.answer 0
  | script => s.push [.run script]

def runScript (script : Script) (s : Shell) : Demand :=
  match script.output? with
  | some text => s.runPrinting text script
  | none =>
    match script with
    | .skip => .proceed s
    | .simple assignments words redirects => s.checked.runSimple assignments words redirects
    | .seq first second => .proceed (s.push [.run first, .run second])
    | .onlyIf success first second => .proceed (s.push [.run first, .onlyIf success second])
    | .negate body => .proceed (s.push [.run body, .negate])
    | .pipeline first rest => s.checked.runPipeline (first :: parts rest)
    | .background body =>
      let deaf : Shell := { s with ignored := s.ignored ++ [.int, .quit] }
      s.forkOne (deaf.offspring (s.files.lead 0 .null) (only body)) fun pid =>
        { s.answer 0 with jobs := (pid, none) :: s.jobs }
    | .group body redirects => s.under redirects [.run body]
    | .apart body redirects =>
      match s.redirected redirects with
      | .ok files => s.checked.runApart files body
      | .error reason => s.complain 2 reason
    | .branch test yes no => .proceed (s.push [.run test, .branch yes no])
    | .loop success test body => .proceed (s.push [.run test, .loop success test body 0])
    | .each name words body =>
      match words.flatMap s.expand with
      | [] => .proceed (s.answer 0)
      | words => .proceed (s.push [.each name words body])
    | .choose word cases =>
      let text := (s.expandWhole word).toList
      match cases.find? fun p => p.1.any fun w => fits (s.pattern w) text with
      | some (_, body) => .proceed (s.orSucceed body)
      | none => .proceed (s.answer 0)
    | .define name body =>
      .proceed { s.answer 0 with
        functions := (name, body) :: s.functions.filter fun p => p.1 != name }
    | .malformed reason => s.fail reason

/-! ## Waiting -/

/-- The status that tells how a process ended. -/
def statusOf : Option ChildExit → Nat
  | some (.exited code) => code
  | some (.signaled sig) => 128 + sig.number
  | _ => 127

/-- What a signal that ends a process is called, where that is told. -/
def callings : List (Signal × String) :=
  [(.hup, "Hangup"), (.quit, "Quit"), (.ill, "Illegal instruction"),
    (.trap, "Trace/breakpoint trap"), (.abrt, "Aborted"), (.bus, "Bus error"),
    (.fpe, "Floating point exception"), (.kill, "Killed"), (.usr1, "User defined signal 1"),
    (.segv, "Segmentation fault"), (.usr2, "User defined signal 2"), (.alrm, "Alarm clock"),
    (.term, "Terminated"), (.stkflt, "Stack fault"), (.xcpu, "CPU time limit exceeded"),
    (.xfsz, "File size limit exceeded"), (.vtalrm, "Virtual timer expired"),
    (.prof, "Profiling timer expired"), (.io, "I/O possible"), (.pwr, "Power failure"),
    (.sys, "Bad system call")]

/-- Takes the end of a process in: what a signal did is told. -/
def hearOf (exit : Option ChildExit) (s : Shell) : Shell :=
  let s := s.answer (statusOf exit)
  match exit with
  | some (.signaled sig) =>
    match callings.lookup sig with
    | some calling => s.push [.print 2 (Text.Utf8.encode (calling ++ "\n"))]
    | none => s
  | _ => s

def awaitJobs (all : Bool) (pids : List Pid) (s : Shell) : Demand :=
  match pids with
  | [] => .proceed (if all then s.answer 0 else s)
  | pid :: rest =>
    match s.jobs.lookup pid with
    | none => .proceed ((s.answer 127).push [.await all rest])
    | some (some status) => .proceed ((s.answer status).push [.await all rest])
    | some none => .wait pid fun exit =>
      let jobs := s.jobs.map fun j => if j.1 = pid then (pid, some (statusOf exit)) else j
      let s := { s with jobs }.push [.await all rest]
      if all then s else s.hearOf exit

/-! ## Steps -/

def lineText (line : Bytes) : String := (Text.Utf8.decode? line).getD ""

/-- What was printed, without the line breaks at its end. -/
def printedText (text : Bytes) : String := lineText (text.reverse.dropWhile (· == 10)).reverse

/-- Does what comes first; the rest is still to be done. -/
def frame (f : Frame) (s : Shell) : Demand :=
  let go (frames : List Frame) : Demand := .proceed (s.push frames)
  match f with
  | .run script => s.runScript script
  | .invoke words => s.invoke words
  | .program name words => s.runProgram name words
  | .onlyIf success script => go (if (s.status == 0) == success then [.run script] else [])
  | .negate => .proceed (s.verdict (s.status != 0))
  | .branch yes no => .proceed (s.orSucceed (if s.status = 0 then yes else no))
  | .loop success test body status =>
    if (s.status == 0) == success then go [.run body, .again success test body]
    else .proceed (s.answer status)
  | .again success test body => go [.run test, .loop success test body s.status]
  | .each _ [] _ => .proceed s
  | .each name (word :: words) body =>
    .proceed ((s.assign name word).push [.run body, .each name words body])
  | .restore files => .proceed { s with files }
  | .reassign values exported => .proceed (s.reassign values exported)
  | .returned args => .proceed { s with args }
  | .answer status => .proceed (s.answer status)
  | .trapped status => .proceed { s.answer status with before := none }
  | .check =>
    let failed := s.strict && s.status != 0 && !s.todo.any Frame.isTest
    .proceed (if failed then s.leaveWith s.status else s)
  | .readLine raw names line =>
    let assign (status : Nat) : Shell :=
      let cs := (lineText line).toList
      (assignLine names (if raw then cs else unescape cs) s).answer status
    .read 0 fun
      | none => assign 1
      | some 10 => assign 0
      | some b => s.push [.readLine raw names (line ++ [b])]
  | .copy =>
    .read 0 fun
      | some b => s.push [.print 1 [b], .copy]
      | none => s.answer 0
  | .print descriptor bytes => .write descriptor bytes fun _ => s
  | .capture descriptor child text script =>
    .read descriptor fun
      | some b => s.push [.capture descriptor child (text ++ [b]) script]
      | none =>
        { s.push [.wait child, .captured s.status text script] with
          files := s.files.close descriptor }
  | .captured status text script =>
    let s := s.push [.run (script.printing (printedText text))]
    .proceed { s with status, printing := s.status }
  | .wait pid => .wait pid fun exit => s.hearOf exit
  | .await all pids => s.awaitJobs all pids
  | .signals _ [] status => .proceed (s.answer status)
  | .signals sig (target :: rest) status =>
    match Number.readInt target.toList with
    | none => s.complain 2 s!"kill: Illegal number: {target}"
    | some pid => .signal pid sig fun ok =>
      if ok then s.push [.signals sig rest status]
      else s.push [.print 2 (s.complaint "kill: No such process\n"), .signals sig rest 1]
  | .commands line =>
    .read 0 fun
      | none => s.push [.script (lineText line), .leave]
      | some 10 => s.push [.script (lineText line), .commands []]
      | some b => s.push [.commands (line ++ [b])]
  | .script text => go [.run (Script.parse text)]
  | .leave =>
    match s.onExit with
    | some script =>
      .proceed { s with
        onExit := none, before := some s.status, todo := [.run script, .trapped s.status, .leave] }
    | none => .exit s.status

/-- How a signal that arrived breaks off what a shell does: the rest of that, and its status. There
is none while the shell waits for something that it has to have. -/
def brokenOff (sig : Signal) (s : Shell) : Option (List Frame × Nat) :=
  match s.todo with
  | .readLine .. :: todo => some (todo, 1)
  | .await .. :: todo => some (todo, 128 + sig.number)
  | .wait _ :: _ | .capture .. :: _ => none
  | todo => some (todo, s.status)

def proceed (s : Shell) : Demand :=
  match s.todo with
  | [] => .exit s.status
  | f :: todo => frame f { s with todo }

/-- The next step. A signal that arrived comes first. -/
def step (s : Shell) : Demand :=
  match s.arrived with
  | [] => s.proceed
  | sig :: arrived =>
    match s.traps.lookup sig, s.brokenOff sig with
    | none, _ => .proceed { s with arrived }
    | some _, none => s.proceed
    | some script, some (todo, status) =>
      .proceed { s with
        arrived, status, before := some status, todo := .run script :: .trapped status :: todo }

end Observatory.Rehearsal.Shell
