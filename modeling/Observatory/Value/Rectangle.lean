import Observatory.Value.Scalar
/-!
# Rectangles

Four cells of one base type. Each part keeps its own mark for being changed. Its name is the
name of the rectangle with a suffix.
-/

namespace Observatory

structure Part where
  cell : Scalar
  dirty : Bool := false

/-- Four cells of one base type. -/
structure Rectangle where
  base : Base
  x : Part
  y : Part
  width : Part
  height : Part

namespace Rectangle

def new (base : Base) : Rectangle :=
  let part : Part := { cell := Scalar.default base }
  ⟨base, part, part, part, part⟩

/-- The parts with the suffixes of their names, in the order in which they are written. -/
def parts (r : Rectangle) : List (String × Part) :=
  [("X", r.x), ("Y", r.y), ("WIDTH", r.width), ("HEIGHT", r.height)]

/-- Reads all four cells before any of them is touched; then all are changed. -/
def parse (r : Rectangle) (rest : List Char) : Except ParseError (Rectangle × List Char) := do
  let (x, rest) ← Scalar.parse r.base rest
  let (y, rest) ← Scalar.parse r.base rest
  let (width, rest) ← Scalar.parse r.base rest
  let (height, rest) ← Scalar.parse r.base rest
  return (⟨r.base, ⟨x, true⟩, ⟨y, true⟩, ⟨width, true⟩, ⟨height, true⟩⟩, rest)

/-- What an operator makes of one part. -/
def applyPart (op : Operator) (part operand : Part) : Except OperationError Part := do
  return ⟨← Scalar.apply op part.cell operand.cell, true⟩

/-- Applies an operator part by part; one refused part refuses all. -/
def apply (op : Operator) (r operand : Rectangle) : Except OperationError Rectangle := do
  let x ← applyPart op r.x operand.x
  let y ← applyPart op r.y operand.y
  let width ← applyPart op r.width operand.width
  let height ← applyPart op r.height operand.height
  return ⟨r.base, x, y, width, height⟩

def join (text : Scalar → List Char) (r : Rectangle) : List Char :=
  text r.x.cell ++ ' ' :: (text r.y.cell ++ ' ' :: (text r.width.cell ++
    ' ' :: text r.height.cell))

def encode (r : Rectangle) : List Char := r.join Scalar.encode

def display (r : Rectangle) : List Char := r.join Scalar.display

def agrees (a b : Rectangle) : Bool :=
  a.x.cell.agrees b.x.cell && a.y.cell.agrees b.y.cell &&
    a.width.cell.agrees b.width.cell && a.height.cell.agrees b.height.cell

end Rectangle

end Observatory
