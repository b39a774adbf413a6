import Observatory.Value.Scalar
/-!
# Series

An ordered sequence of cells of one base type.
-/

namespace Observatory

/-- An ordered sequence of cells of one base type. -/
structure Series where
  base : Base
  items : List Scalar := []

namespace Series

/-- Reads cells until no token is left. Every cell takes at least one token, so `fuel`, the
length of the text, is never used up. -/
def parseItems (base : Base) : Nat → List Char → Except ParseError (List Scalar)
  | 0, _ => .ok []
  | fuel + 1, rest =>
    if Token.atEnd rest then .ok []
    else do
      let (item, rest) ← Scalar.parse base rest
      return item :: (← parseItems base fuel rest)

/-- Reads every token left, each as one item. -/
def parse (s : Series) (rest : List Char) : Except ParseError Series := do
  return { s with items := ← parseItems s.base (rest.length + 1) rest }

def push (item : Scalar) (s : Series) : Except OperationError Series :=
  if item.base = s.base then .ok { s with items := s.items ++ [item] }
  else .error (.incompatible s.base.name item.base.name)

/-- Puts an item at each of the places; one place that does not exist refuses all. -/
def setAt (indices : List Nat) (item : Scalar) (s : Series) : Except OperationError Series :=
  match indices.find? fun i => s.items.length ≤ i with
  | some i => .error (.indexOutOfBounds i s.items.length)
  | none => .ok { s with items := indices.foldl (fun items i => items.set i item) s.items }

/-- A series can only be replaced by one of the same base type. -/
def apply (op : Operator) (s operand : Series) : Except OperationError Series :=
  if op = .assign then
    if operand.base = s.base then .ok { s with items := operand.items }
    else .error (.incompatible s.base.name operand.base.name)
  else .error (.unsupported op "array")

def join (text : Scalar → List Char) (s : Series) : List Char :=
  [' '].intercalate (s.items.map text)

def encode (s : Series) : List Char := s.join Scalar.encode

def display (s : Series) : List Char := s.join Scalar.display

def same (a b : Series) : Bool :=
  a.base == b.base && a.items.length == b.items.length &&
    (a.items.zip b.items).all fun (x, y) => x.same y

end Series

end Observatory
