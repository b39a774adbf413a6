import Observatory.Rehearsal.Shell.Condition
import Observatory.Rehearsal.Shell.Expansion
import Observatory.Rehearsal.Shell.Printed
import Observatory.Rehearsal.Shell.Reader
/-!
# Commands

The commands that a shell carries out itself, and the programs that there are besides it. A wrong
use of a special command ends a shell; one of another command only fails.
-/

namespace Observatory.Rehearsal.Shell

/-! ## Names -/

/-- The commands that are part of the language. -/
def specials : List String :=
  [":", "break", "continue", "eval", "exec", "exit", "export", "readonly", "return", "set", "shift",
    "trap", "unset"]

/-- The other commands that a shell carries out itself. -/
def builtins : List String :=
  ["true", "false", "echo", "printf", "read", "kill", "test", "[", "wait", "cd", "umask", "ulimit",
    "command"]

/-- A number that a command is given, or what is wrong with it. -/
def natural (text : String) : Except String Nat :=
  match Number.readNat text.toList with
  | some n => if n < 2147483648 then .ok n else .error s!"Illegal number: {text}"
  | none => .error s!"Illegal number: {text}"

/-- The signal that a word names, in letters of any size. -/
def signal? (text : String) : Option Signal :=
  match Number.readNat text.toList with
  | some n => Signal.ofNumber? n
  | none => (Signal.names.find? fun p => p.2 == text.toUpper).map Prod.fst

/-- The second character of an option. -/
def optionLetter (word : String) : String := String.ofList ((word.toList.drop 1).take 1)

/-! ## Printing -/

def output (command : String) (bytes : Bytes) (s : Shell) : Demand :=
  if bytes.isEmpty then .proceed (s.answer 0)
  else .write 1 bytes fun ok =>
    if ok then s.answer 0
    else s.push [.print 2 (s.complaint s!"{command}: {command}: I/O error"), .answer 1]

def printFormat (args : List String) (s : Shell) : Demand :=
  match if args.head? = some "--" then args.tail else args with
  | [] => s.complain 2 "printf: usage: printf format [arg ...]"
  | format :: args =>
    let filled := fill (args.length + 1) format args
    if filled.faults.isEmpty && !filled.invalid then s.output "printf" filled.bytes
    else
      let complaints := filled.faults.map fun fault =>
        Frame.print 2 (s.complaint s!"printf: {fault}")
      .proceed (s.push (complaints ++
        [.print 1 filled.bytes, .answer (if filled.invalid then 2 else 1)]))

/-! ## Reading -/

/-- Leaves out the backslashes in front of characters. -/
def unescape : List Char → List Char
  | '\\' :: c :: rest => c :: unescape rest
  | ['\\'] => []
  | c :: rest => c :: unescape rest
  | [] => []

def isName (word : String) : Bool :=
  word.toList.all isNameChar && word.toList.head?.any fun c => !c.isDigit

def readLine : Bool → List String → Shell → Demand
  | _, "-r" :: args, s => readLine true args s
  | raw, "-p" :: _ :: args, s => readLine raw args s
  | _, [], s => s.complain 2 "read: arg count"
  | raw, names, s =>
    match names.find? fun name => !isName name with
    | some name =>
      if name.startsWith "-" then s.complain 2 s!"read: Illegal option -{optionLetter name}"
      else s.complain 2 s!"read: {name}: bad variable name"
    | none => .proceed (s.push [.readLine raw names []])

/-! ## Signals -/

/-- What is said to who sends a signal to nobody. -/
def killUsage : String :=
  "kill: Usage: kill [-s sigspec | -signum | -sigspec] [pid | job]... or\nkill -l [exitstatus]"

/-- Sends a signal, the usual one if none is named. -/
def kill (args : List String) (s : Shell) : Demand :=
  let send (sig : Option Signal) (targets : List String) : Demand :=
    let targets := if targets.head? = some "--" then targets.tail else targets
    if targets.isEmpty then s.complain 2 killUsage else .proceed (s.push [.signals sig targets 0])
  match args with
  | [] => s.complain 2 killUsage
  | first :: targets =>
    if !first.startsWith "-" || first = "-" || first = "--" then send (some .term) args
    else
      let word := String.ofList (first.toList.drop 1)
      match signal? word, targets with
      | some sig, targets => send (some sig) targets
      | none, targets =>
        if word = "0" then send none targets
        else if word = "l" then
          let said := (targets.head?.bind signal?).map Signal.shortName
          s.output "kill" (Text.Utf8.encode (said.elim "" (· ++ "\n")))
        else if word = "s" then
          match targets with
          | [] => s.complain 2 "kill: No arg for -s option"
          | name :: targets =>
            match signal? name with
            | some sig => send (some sig) targets
            | none =>
              if name = "0" then send none targets
              else s.complain 2 s!"kill: invalid signal number or name: {name}"
        else s.complain 2 s!"kill: Illegal option -{optionLetter first}"

/-- Sets what happens when a signal arrives, or at the end if there is none. -/
def setTrap (sig : Option Signal) (action : String) (s : Shell) : Shell :=
  match sig with
  | none => { s with onExit := if action = "-" then none else some (Script.parse action) }
  | some sig =>
    let s := { s with
      ignored := s.ignored.filter (· != sig), traps := s.traps.filter fun p => p.1 != sig }
    if action = "-" then s
    else if action = "" then { s with ignored := s.ignored ++ [sig] }
    else { s with traps := s.traps ++ [(sig, Script.parse action)] }

/-- Sets what happens at the named signals, up to a name that is none. -/
def setTraps (action : String) : List String → Shell → Demand
  | [], s => .proceed (s.answer 0)
  | name :: names, s =>
    if name.toUpper = "EXIT" || name = "0" then setTraps action names (s.setTrap none action)
    else match signal? name with
      | some sig => setTraps action names (s.setTrap (some sig) action)
      | none => .write 2 (Text.Utf8.encode s!"trap: {name}: bad trap\n") fun _ => s.answer 1

/-- Sets what happens when signals arrive. A single word, or a number in front, leaves out what is
to be done. -/
def trap (args : List String) (s : Shell) : Demand :=
  match if args.head? = some "--" then args.tail else args with
  | [] => .proceed (s.answer 0)
  | first :: names =>
    if first.startsWith "-" && first != "-" then
      s.fail s!"trap: Illegal option -{optionLetter first}"
    else if names.isEmpty || (Number.readNat first.toList).isSome then
      setTraps "-" (first :: names) s
    else setTraps first names s

/-! ## Going elsewhere -/

def breakLoops : Nat → Shell → Shell
  | 0, s => s
  | n + 1, s => if s.todo.any Frame.isLoop then breakLoops n (s.unwind false Frame.isLoop) else s

/-- Leaves loops, or goes on with the last one of them. -/
def leaveLoops (on : Bool) (count : Nat) (s : Shell) : Shell :=
  let s := (if on then s.breakLoops (count - 1) else s.breakLoops count).answer 0
  if on && s.todo.any Frame.isLoop then s.unwind true Frame.isLoop else s

/-- Leaves a function, or the shell if there is none. -/
def leaveFunction (status : Nat) (s : Shell) : Shell :=
  if s.todo.any Frame.isReturn then (s.unwind true Frame.isReturn).answer status
  else s.leaveWith status

/-! ## Settings -/

def setOptions : List String → Shell → Demand
  | [], s => .proceed (s.answer 0)
  | "-o" :: _ :: rest, s => setOptions rest s
  | word :: rest, s =>
    if word = "--" then .proceed { s.answer 0 with args := rest }
    else if word.startsWith "-" || word.startsWith "+" then
      match (word.toList.drop 1).find? fun c => !"abCefhmnouvx".toList.contains c with
      | some c => s.fail s!"set: Illegal option {String.ofList [word.front, c]}"
      | none =>
        setOptions rest (if word.contains 'e' then { s with strict := word.startsWith "-" } else s)
    else .proceed { s.answer 0 with args := word :: rest }

/-- Shows variables to programs, after giving them values. -/
def exportAll (args : List String) (s : Shell) : Shell :=
  (args.foldl (fun s arg =>
    let (name, value) := arg.toList.span (· != '=')
    let name := String.ofList name
    let s := if value.isEmpty then s else s.assign name (String.ofList value.tail)
    { s with exported := name :: s.exported }) s).answer 0

def unset (args : List String) (s : Shell) : Demand :=
  let (functions, names) := match args with
    | "-f" :: names => (true, names)
    | "-v" :: names => (false, names)
    | names => (false, names)
  match names.find? fun name => !isName name with
  | some name =>
    if name.startsWith "-" then s.fail s!"unset: Illegal option -{optionLetter name}"
    else s.fail s!"unset: {name}: bad variable name"
  | none =>
    .proceed (if functions then
        { s.answer 0 with functions := s.functions.filter fun p => !names.contains p.1 }
      else (names.foldl (fun s name => s.unassign name) s).answer 0)

/-! ## Commands of the shell -/

def testCondition (command : String) (words : List String) (s : Shell) : Demand :=
  match Condition.holds (words.length + 1) words with
  | .ok b => .proceed (s.verdict b)
  | .error reason => s.complain 2 s!"{command}: {reason}"

def runSpecial (command : String) (args : List String) (s : Shell) : Demand :=
  let counted (otherwise : Nat) (go : Nat → Demand) : Demand :=
    match args with
    | [] => go otherwise
    | arg :: _ =>
      match natural arg with
      | .ok n => go n
      | .error reason => s.fail s!"{command}: {reason}"
  match command with
  | "break" => counted 1 fun n => .proceed (s.leaveLoops false n)
  | "continue" => counted 1 fun n => .proceed (s.leaveLoops true n)
  | "return" => counted s.status fun n => .proceed (s.leaveFunction n)
  | "exit" => counted (s.before.getD s.status) fun n => .proceed (s.leaveWith n)
  | "shift" => counted 1 fun n =>
    if n ≤ s.args.length then .proceed { s.answer 0 with args := s.args.drop n }
    else s.fail "shift: can't shift that many"
  | "eval" => .proceed ((s.answer 0).push [.script (" ".intercalate args)])
  | "export" | "readonly" =>
    let args := args.filter (· != "-p")
    let names := args.map fun arg => String.ofList (arg.toList.takeWhile (· != '='))
    match names.find? fun name => !isName name with
    | some name => s.fail s!"{command}: {name}: bad variable name"
    | none =>
      let shown := s.exportAll args
      .proceed (if command = "export" then shown else { shown with exported := s.exported })
  | "set" => s.setOptions args
  | "trap" => s.trap args
  | "unset" => s.unset args
  | _ => .proceed (s.answer 0)

/-- Where a command is found, if it is one. -/
def whereabouts (name : String) (s : Shell) : Option String :=
  if (specials ++ builtins).contains name || (s.functions.lookup name).isSome then some name
  else if name.contains '/' then (programOf? name).map fun _ => name
  else (programOf? ("/usr/bin/" ++ name)).map fun _ => "/usr/bin/" ++ name

def runBuiltin (command : String) (args : List String) (s : Shell) : Demand :=
  match command, args with
  | "false", _ => .proceed (s.answer 1)
  | "echo", args => s.output "echo" (echo args)
  | "printf", args => s.printFormat args
  | "read", args => s.readLine false args
  | "kill", args => s.kill args
  | "test", args => s.testCondition "test" args
  | "[", args =>
    if args.getLast? = some "]" then s.testCondition "[" args.dropLast
    else s.complain 2 "[: missing ]"
  | "wait", [] =>
    .proceed (s.push [.await true ((s.jobs.filter fun j => j.2.isNone).reverse.map Prod.fst)])
  | "wait", args =>
    match args.mapM natural with
    | .ok pids => .proceed (s.push [.await false pids])
    | .error reason => s.complain 2 s!"wait: {reason}"
  | "cd", path :: _ =>
    if placeOf path = .directory then .proceed (s.answer 0)
    else s.complain 2 s!"cd: can't cd to {path}"
  | "umask", [] => s.output "umask" (Text.Utf8.encode "0022\n")
  | "command", ["-v", name] =>
    match s.whereabouts name with
    | some place => s.output "command" (Text.Utf8.encode (place ++ "\n"))
    | none => .proceed (s.answer 127)
  | "command", _ :: _ => .proceed (s.push [.invoke args])
  | _, _ => .proceed (s.answer 0)

/-! ## Programs -/

/-- Prints a line to the error stream and ends with a status. -/
def report (status : Nat) (line : String) : List Frame :=
  [.print 2 (Text.Utf8.encode (line ++ "\n")), .answer status]

/-- A duration in some unit, the second if none is named. -/
def duration? (text : String) : Option Duration :=
  let cs := text.toList
  let (scale, cs) := match cs.getLast? with
    | some 's' => (1, cs.dropLast)
    | some 'm' => (60, cs.dropLast)
    | some 'h' => (3600, cs.dropLast)
    | some 'd' => (86400, cs.dropLast)
    | _ => (1, cs)
  let (whole, decimals) := cs.span (· != '.')
  let decimals := decimals.tail
  if whole.isEmpty && decimals.isEmpty then none
  else do
    let seconds ← Number.readNat ('0' :: whole)
    let nanos ← Number.readNat ((decimals ++ List.replicate 9 '0').take 9)
    return scale * (Duration.ofSeconds seconds + nanos)

def sleepFor (args : List String) (s : Shell) : Demand :=
  let refuse (line : String) : Demand :=
    .proceed (s.push (report 1 s!"sleep: {line}\nTry 'sleep --help' for more information."))
  if args.isEmpty then refuse "missing operand"
  else match args.find? fun arg => (duration? arg).isNone with
    | some arg => refuse s!"invalid time interval '{arg}'"
    | none => .pause ((args.filterMap duration?).foldl (· + ·) 0) (s.answer 0)

/-- Copies files, or what can be read, to where it can be written. -/
def copyFiles (args : List String) (s : Shell) : Demand :=
  let files := if args.isEmpty then ["-"] else args
  let fault? (file : String) : Option String :=
    match placeOf file with
    | .directory => some "Is a directory"
    | .beyondFile => some "Not a directory"
    | .missing => if file = "-" then none else some "No such file or directory"
    | _ => none
  let frames := files.flatMap fun file =>
    match fault? file with
    | some fault => report 1 s!"cat: {file}: {fault}"
    | none => if file = "-" then [.copy] else []
  let failed := files.any fun file => (fault? file).isSome
  .proceed (s.push (frames ++ [.answer (if failed then 1 else 0)]))

def interpret (words : List String) (s : Shell) : Demand :=
  let s := { s with name := words.headD "sh" }
  let (options, args) := words.tail.span fun arg => arg.startsWith "-" && arg != "-" && arg != "--"
  let args := if args.head? = some "--" then args.tail else args
  let letters := options.flatMap fun option => option.toList.drop 1
  let refuse (line : String) : Demand := .proceed (s.push (report 2 s!"{s.name}: 0: {line}"))
  let s := { s with strict := letters.contains 'e' }
  match letters.find? fun c => !"abCcefhimnsuvx".toList.contains c with
  | some c => refuse s!"Illegal option -{c}"
  | none =>
    if letters.contains 'c' then
      match args with
      | [] => refuse "-c requires an argument"
      | text :: args =>
        .proceed { s with
          name := args.headD s.name, args := args.tail, todo := [.script text, .leave] }
    else match args with
      | file :: _ =>
        if letters.contains 's' then .proceed { s with args, todo := [.commands []] }
        else refuse s!"cannot open {file}: No such file"
      | [] => .proceed { s with todo := [.commands []] }

def printArguments (args : List String) (s : Shell) : Demand :=
  let (options, args) := args.span fun arg => ["-n", "-e", "-E", "-ne", "-en"].contains arg
  let has (letter : Char) : Bool := options.any fun option => option.contains letter
  let said := Text.Utf8.encode (" ".intercalate args)
  s.output "echo" (match has 'e', has 'n' with
    | true, true => echo ("-n" :: args)
    | true, false => echo args
    | false, true => said
    | false, false => said ++ [10])

def runProgram (name : String) (words : List String) (s : Shell) : Demand :=
  match name with
  | "sh" => s.interpret words
  | "sleep" => s.sleepFor words.tail
  | "cat" => s.copyFiles words.tail
  | "echo" => s.printArguments words.tail
  | name => s.runBuiltin name words.tail

end Observatory.Rehearsal.Shell
