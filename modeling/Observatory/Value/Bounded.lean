import Observatory.Value.Scalar
/-!
# Bounded doubles

A double that stays inside an inclusive range. The number that is none is inside every range.
-/

namespace Observatory

/-- A double with an inclusive range. -/
structure Bounded where
  value : Float
  min : Float
  max : Float

namespace Bounded

/-- A new one holds no number and has no bounds. -/
def unbounded : Bounded :=
  ⟨nan, Float.ofBits 0xfff0000000000000, Float.ofBits 0x7ff0000000000000⟩

def contains (b : Bounded) (x : Float) : Bool := x.isNaN || (b.min ≤ x && x ≤ b.max)

/-- Reads one number, to be checked against the range, or three that replace the range too. -/
def parse (b : Bounded) (rest : List Char) : Except ParseError (Bounded × List Char) := do
  let (value, rest) ← Token.nextAs Token.toDouble rest
  let (parsed, rest) ←
    if Token.atEnd rest then pure (({ b with value } : Bounded), rest)
    else do
      let (min, rest) ← Token.nextAs Token.toDouble rest
      let (max, rest) ← Token.nextAs Token.toDouble rest
      pure (({ value, min, max } : Bounded), rest)
  if parsed.contains value then return (parsed, rest)
  else throw (.outOfRange value parsed.min parsed.max)

/-- What an operator makes of the number; outside the range it is refused. -/
def apply (op : Operator) (operand : Float) (b : Bounded) : Except OperationError Bounded :=
  let value := Scalar.combine op b.value operand
  if b.contains value then .ok { b with value } else .error (.outOfRange value)

def encode (b : Bounded) : List Char :=
  Number.wireDouble b.value ++ ' ' :: (Number.wireDouble b.min ++
    ' ' :: Number.wireDouble b.max)

def same (a b : Bounded) : Bool := a.value == b.value && a.min == b.min && a.max == b.max

end Bounded

end Observatory
