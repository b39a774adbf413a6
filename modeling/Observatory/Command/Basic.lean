import Observatory.Text.Blank
import Observatory.Text.Literal
import Observatory.Text.Quoted
/-!
# Commands

What an endpoint asks of a peer: an opcode and parameters. Somebody may wait for the outcome.
-/

namespace Observatory

/-- A command for a peer. -/
structure Command where
  opcode : String
  params : List String := []
  /-- Whom the command was issued for. -/
  origin : Option String := none
  /-- Somebody is to be told the outcome. -/
  tracked : Bool := false
  deriving DecidableEq

namespace Command

/-- Splits a typed line into an opcode and parameters; a blank line is no command. -/
def ofLine? (line : String) : Option Command :=
  match Text.words line.toList with
  | [] => none
  | opcode :: params =>
    some { opcode := String.ofList opcode, params := params.map String.ofList }

def param (p : String) (c : Command) : Command := { c with params := c.params ++ [p] }

/-- The line of a command, without its terminator. -/
def encode (c : Command) : List Char :=
  c.opcode.toList ++ c.params.flatMap fun p => ' ' :: Text.Quoted.encodeArgument p.toList

def line (c : Command) : String := String.ofList c.encode

def describe (c : Command) : String :=
  Text.Literal.fields "Command"
    [("opcode", Text.Literal.quote c.opcode), ("params", Text.Literal.quoteList c.params),
      ("origin", Text.Literal.quote? c.origin),
      ("continuation", if c.tracked then "true" else "false")] false

end Command

end Observatory
