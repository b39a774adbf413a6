import Observatory.CommandLine.Likeness
import Observatory.Number.Integer
/-!
# Command lines

What a program accepts as its arguments: options with a value, flags, and positional arguments,
or the name of a subcommand that the rest of the line belongs to. Some options may stand on either
side of that name. A lone `--` ends the options; what follows is positional whatever it looks like.
-/

namespace Observatory.CommandLine

/-! ## Grammars -/

/-- An option with a value, or a flag. -/
structure Switch where
  name : String
  short : Option Char := none
  long : String
  takesValue : Bool := true
  /-- The value without the option. -/
  default : Option String := none
  /-- The values that can be chosen from; any value, if there are none. -/
  choices : List String := []
  /-- What a value has to look like. -/
  accepts : String → Bool := fun _ => true

structure Grammar where
  switches : List Switch
  /-- The names of the positional arguments, all of them required. -/
  positionals : List String := []
  /-- The last positional argument takes all that follows. -/
  repeats : Bool := false
  /-- The names that hand the rest of the line over to another grammar. -/
  subcommands : List String := []

inductive UsageError where
  | missingArgumentOrSubcommand
  | helpDisplayed
  | versionDisplayed
  | unknownArgument
  | unrecognizedSubcommand
  /-- An argument that is much like the name of a subcommand. -/
  | invalidSubcommand
  | missingRequiredArgument
  | invalidValue
  | valueValidation
  | emptyValue
  | unexpectedMultipleUsage
  deriving Repr, DecidableEq

structure Given where
  /-- How often each switch was used. -/
  uses : List String := []
  /-- The values of options, in their order. -/
  values : List (String × String) := []
  positionals : List String := []
  /-- Only positional arguments follow. -/
  trailing : Bool := false
  /-- The option whose value comes next. -/
  awaiting : Option String := none

namespace Given

def use (name : String) (g : Given) : Given := { g with uses := g.uses ++ [name] }

def give (name value : String) (g : Given) : Given :=
  { g with values := g.values ++ [(name, value)], awaiting := none }

/-- The value of an option, if it was used with one. -/
def value? (name : String) (g : Given) : Option String := g.values.lookup name

end Given

namespace Grammar

/-! ## Switches -/

def helpName : String := "help"

def versionName : String := "version"

def byLong? (long : String) (g : Grammar) : Option Switch :=
  g.switches.find? fun s => s.long == long

def byShort? (c : Char) (g : Grammar) : Option Switch := g.switches.find? fun s => s.short == some c

/-- Uses an option. Its value stands behind it, or is attached; equality signs in front of an
attached value do not count. -/
def useOption (s : Switch) (attached : Option (List Char)) (given : Given) : Given :=
  let given := given.use s.name
  match attached with
  | some value => given.give s.name (String.ofList (value.dropWhile (· == '=')))
  | none => { given with awaiting := some s.name }

/-- An argument that starts with two dashes. -/
def long (g : Grammar) (arg : List Char) (given : Given) : Except UsageError Given :=
  let body := arg.dropWhile (· == '-')
  let name := String.ofList (body.takeWhile (· != '='))
  let attached := match body.dropWhile (· != '=') with
    | [] => none
    | _ :: value => some value
  match g.byLong? name with
  | some s =>
    if s.takesValue then .ok (useOption s attached given)
    else .ok { given.use s.name with awaiting := none }
  | none =>
    if name = helpName then .error .helpDisplayed
    else if name = versionName then .error .versionDisplayed
    else .error .unknownArgument

/-- The letters of an argument that starts with one dash. The first option among them takes what
is left as its value. -/
def shorts (g : Grammar) : List Char → Given → Except UsageError Given
  | [], given => .ok given
  | c :: rest, given =>
    match g.byShort? c with
    | some s =>
      if s.takesValue then .ok (useOption s (if rest.isEmpty then none else some rest) given)
      else g.shorts rest { given.use s.name with awaiting := none }
    | none =>
      if c = 'h' then .error .helpDisplayed
      else if c = 'V' then .error .versionDisplayed
      else .error .unknownArgument

/-! ## Arguments -/

/-- Whether an argument starts with a dash and is more than that. -/
def startsSwitch : List Char → Bool
  | '-' :: _ :: _ => true
  | _ => false

def positional (g : Grammar) (arg : String) (given : Given) : Except UsageError Given :=
  if Likeness.resemblesAny arg g.subcommands then .error .invalidSubcommand
  else if given.positionals.length < g.positionals.length || g.repeats then
    .ok { given with positionals := given.positionals ++ [arg] }
  else .error .unknownArgument

def argument (g : Grammar) (arg : String) (given : Given) : Except UsageError Given :=
  let cs := arg.toList
  if given.trailing then g.positional arg given
  else if arg = "--" then .ok { given with trailing := true }
  else if startsSwitch cs then
    if cs.take 2 = ['-', '-'] then g.long cs given else g.shorts (cs.drop 1) given
  else match given.awaiting with
    | some name => .ok (given.give name arg)
    | none => g.positional arg given

/-- Reads arguments up to the name of a subcommand. Gives that name and what follows it. -/
def scan (g : Grammar) :
    Given → List String → Except UsageError (Given × Option (String × List String))
  | given, [] => .ok (given, none)
  | given, arg :: rest =>
    if !given.trailing && given.awaiting.isNone && g.subcommands.contains arg then
      .ok (given, some (arg, rest))
    else do g.scan (← g.argument arg given) rest

/-! ## Checks -/

def checkSwitch (given : Given) (s : Switch) : Except UsageError Unit :=
  let values := (given.values.filter fun p => p.1 == s.name).map Prod.snd
  if s.takesValue && given.uses.contains s.name && values.isEmpty && s.default.isNone then
    .error .emptyValue
  else if !s.choices.isEmpty && values.any fun v => !s.choices.contains v then .error .invalidValue
  else if values.any fun v => !s.accepts v then .error .valueValidation
  else if 1 < given.uses.count s.name then .error .unexpectedMultipleUsage
  else .ok ()

/-- Checks that nothing is missing and that every switch is used as it should be. -/
def check (g : Grammar) (given : Given) : Except UsageError Unit :=
  if given.positionals.length < g.positionals.length then .error .missingRequiredArgument
  else g.switches.forM (checkSwitch given)

/-- Reads a whole command line without subcommands. -/
def read (g : Grammar) (args : List String) : Except UsageError Given := do
  let (given, _) ← g.scan {} args
  g.check given
  return given

end Grammar

/-! ## Programs with subcommands -/

/-- A program with subcommands. Its switches may stand on either side of their names. -/
structure Program where
  switches : List Switch
  subcommands : List (String × Grammar)

/-- A command line of such a program. -/
structure Invocation where
  before : Given
  subcommand : String
  after : Given

namespace Invocation

/-- The value of a switch; behind the subcommand it counts more. A switch that was used without a
value has its default. -/
def value (s : Switch) (i : Invocation) : String :=
  let given := if i.after.uses.contains s.name then i.after else i.before
  (given.value? s.name).getD (s.default.getD "")

def isSet (s : Switch) (i : Invocation) : Bool :=
  i.before.uses.contains s.name || i.after.uses.contains s.name

end Invocation

namespace Program

/-- The grammar of a subcommand, with the switches of the program. -/
def grammar? (name : String) (p : Program) : Option Grammar :=
  (p.subcommands.lookup name).map fun g => { g with switches := g.switches ++ p.switches }

/-- A request for the help of subcommands; subcommands have none of their own. -/
def help (p : Program) (topics : List String) : UsageError :=
  match topics with
  | [] => .helpDisplayed
  | [topic] =>
    if topic = Grammar.helpName || (p.grammar? topic).isSome then .helpDisplayed
    else .unrecognizedSubcommand
  | _ => .unrecognizedSubcommand

def read (p : Program) (args : List String) : Except UsageError Invocation := do
  let own : Grammar := {
    switches := p.switches
    subcommands := p.subcommands.map Prod.fst ++ [Grammar.helpName] }
  let (before, found) ← own.scan {} args
  match found with
  | none => throw .missingArgumentOrSubcommand
  | some (name, rest) =>
    match p.grammar? name with
    | none => throw (p.help rest)
    | some g =>
      let after ← g.read rest
      own.check before
      return ⟨before, name, after⟩

end Program

end Observatory.CommandLine
