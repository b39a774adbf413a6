import Observatory.Client.Request
import Observatory.CommandLine.Grammar
/-!
# Arguments of the command line client
-/

namespace Observatory.Client

open CommandLine

def hostSwitch : Switch :=
  { name := "host", short := some 'h', long := "host", default := some "127.0.0.1" }

def portSwitch : Switch :=
  { name := "port", short := some 'p', long := "port", default := some "6170" }

def timeoutSwitch : Switch :=
  { name := "timeout", short := some 't', long := "timeout", default := some "5",
    accepts := fun text => (seconds? text).isSome }

def verboseSwitch : Switch :=
  { name := "verbose", short := some 'v', long := "verbose", takesValue := false }

def opSwitch : Switch :=
  { name := "op", long := "op", default := some "=", choices := ["=", "+", "-"] }

def program : Program where
  switches := [hostSwitch, portSwitch, timeoutSwitch, verboseSwitch]
  subcommands :=
    [("values", { switches := [] }), ("get", { switches := [], positionals := ["name"] }),
      ("set", { switches := [opSwitch], positionals := ["name", "value"], repeats := true }),
      ("cmd", { switches := [], positionals := ["line"], repeats := true }),
      ("watch", { switches := [] })]

/-- Why the arguments are no request. -/
inductive ArgumentError where
  | usage (e : UsageError)
  | emptyNumber
  | invalidDigit
  | numberTooLarge
  deriving DecidableEq

namespace ArgumentError

/-- The wording of a cause; errors of usage are worded by the help. -/
def message : ArgumentError → String
  | usage _ => ""
  | emptyNumber => "cannot parse integer from empty string"
  | invalidDigit => "invalid digit found in string"
  | numberTooLarge => "number too large to fit in target type"

end ArgumentError

/-- Reads digits behind a number; the first digit at fault decides the error. -/
def readPort : List Char → Nat → Except ArgumentError Nat
  | [], n => .ok n
  | c :: rest, n =>
    if !c.isDigit then .error .invalidDigit
    else
      let n := 10 * n + (c.toNat - '0'.toNat)
      if n < UInt16.size then readPort rest n else .error .numberTooLarge

/-- The number of a port: decimal digits, with or without a plus sign. -/
def portNumber (text : String) : Except ArgumentError Nat :=
  match text.toList with
  | [] => .error .emptyNumber
  | ['+'] => .error .invalidDigit
  | '+' :: rest => readPort rest 0
  | cs => readPort cs 0

def taskOf (i : Invocation) : Task :=
  let args := i.after.positionals
  match i.subcommand with
  | "get" => .get (args.headD "")
  | "set" => .set (args.headD "") (i.value opSwitch) (args.drop 1)
  | "cmd" => .command (" ".intercalate args)
  | "watch" => .watch
  | _ => .values

def Request.ofArguments (args : List String) : Except ArgumentError Request := do
  let i ← (program.read args).mapError .usage
  return {
    host := i.value hostSwitch
    port := ← portNumber (i.value portSwitch)
    timeout := Duration.ofSeconds ((seconds? (i.value timeoutSwitch)).getD 0)
    verbose := i.isSet verboseSwitch
    task := taskOf i }

end Observatory.Client
