import Observatory.ParseError
/-!
# Operators of a set request
-/

namespace Observatory

/-- How a set request combines the value with its operand. -/
inductive Operator where
  | assign
  | add
  | subtract
  deriving Repr, DecidableEq

namespace Operator

/-- The operator that a token names; the two that change a value have a long form too. -/
def parse (token : List Char) : Except ParseError Operator :=
  match token with
  | ['='] => .ok assign
  | ['+'] => .ok add
  | ['+', '='] => .ok add
  | ['-'] => .ok subtract
  | ['-', '='] => .ok subtract
  | _ => .error (.invalidOperator (String.ofList token))

def symbol : Operator → Char
  | assign => '='
  | add => '+'
  | subtract => '-'

theorem parse_symbol (op : Operator) : parse [op.symbol] = .ok op := by
  cases op <;> rfl

end Operator

end Observatory
