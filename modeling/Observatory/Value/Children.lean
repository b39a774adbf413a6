import Observatory.Value.InPlace
/-!
# The children of a rectangle

A rectangle stores four values, each with a name, flags and a mark of its own, and does what it is
asked to by doing it to every one of them. Nothing but the names and flags that they were given
ties the four to the rectangle, and its base type is that of the first one.
-/

namespace Observatory

/-- Four cells that were read for a rectangle, or that another one holds. -/
structure Cells where
  x : Scalar
  y : Scalar
  width : Scalar
  height : Scalar

/-- What the parts hold. -/
def Rectangle.cells (r : Rectangle) : Cells :=
  ⟨r.x.cell, r.y.cell, r.width.cell, r.height.cell⟩

/-- The four values that a rectangle stores. -/
structure Children where
  x : Value
  y : Value
  width : Value
  height : Value

namespace Children

def new (name description : String) (base : Base) : Children :=
  let child (suffix : String) : Value :=
    Value.new (name ++ "." ++ suffix) (description ++ " " ++ suffix) (.scalar base)
  ⟨child "X", child "Y", child "WIDTH", child "HEIGHT"⟩

/-- The children in the order in which they are written. -/
def toList (c : Children) : List Value := [c.x, c.y, c.width, c.height]

/-- Hands the flags of the rectangle down. -/
def withFlags (flags : Flags) (c : Children) : Children :=
  ⟨{ c.x with flags }, { c.y with flags }, { c.width with flags }, { c.height with flags }⟩

def base (c : Children) : Base :=
  match c.x.contents with
  | .scalar cell => cell.base
  | _ => .integer

/-- Reads all four cells before any child is touched. -/
def read (c : Children) (text : List Char) : Except ParseError Cells := do
  let (x, rest) ← Scalar.parse c.base text
  let (y, rest) ← Scalar.parse c.base rest
  let (width, rest) ← Scalar.parse c.base rest
  let (height, rest) ← Scalar.parse c.base rest
  Token.finish rest
  return ⟨x, y, width, height⟩

/-- Stores a cell in each child, and marks it. -/
def assign (cells : Cells) (c : Children) : Children :=
  ⟨c.x.withContents (.scalar cells.x), c.y.withContents (.scalar cells.y),
    c.width.withContents (.scalar cells.width), c.height.withContents (.scalar cells.height)⟩

/-- Applies an operator to copies of the children; one refused child refuses all. -/
def apply (op : Operator) (cells : Cells) (c : Children) : Except OperationError Children := do
  let x ← c.x.apply op (.scalar cells.x)
  let y ← c.y.apply op (.scalar cells.y)
  let width ← c.width.apply op (.scalar cells.width)
  let height ← c.height.apply op (.scalar cells.height)
  return ⟨x, y, width, height⟩

/-- Applies an operator with the contents of another value, which has to be a rectangle. -/
def combine (op : Operator) (operand : Contents) (c : Children) :
    Except OperationError Children :=
  match operand with
  | .rectangle r => c.apply op r.cells
  | other => .error (.incompatible "rectangle" other.kind.name)

/-- What a call on the rectangle makes of its children, or why it is refused. -/
def attempt (call : Value.Call) (c : Children) : Except OperationError Children :=
  match call with
  | .set text => c.assign <$> (c.read text.toList).mapError .parse
  | .apply op operand => c.combine op operand
  | .applyText op text => do
    let cells ← (c.read text.toList).mapError .parse
    if op = .assign then return c.assign cells else c.apply op cells
  | .setFrom other => c.combine .assign other
  | .setDouble x => c.combine .assign (.scalar (.double x))
  | .setInteger i => c.combine .assign (.scalar (.integer i))
  | .setLong i => c.combine .assign (.scalar (.long i))
  | .setBool b => c.combine .assign (.scalar (.bool b))
  | .setString text => c.combine .assign (.scalar (.string text))
  | .select _ => .error (.unsupported .assign "symbol assignment on non-selection")
  | .setItems _ _ => .error (.unsupported .assign "indexed assignment on non-array")
  | .push _ => .error (.unsupported .add "push on non-array")

end Children

end Observatory
