import Observatory.Record.Basic
import Observatory.Value.Bounded
import Observatory.Value.Rectangle
import Observatory.Value.Selection
import Observatory.Value.Series
/-!
# Values

A typed, named state cell that remembers whether it changed. Every operation either gives the
changed value, marked dirty, or refuses and says why.
-/

namespace Observatory

/-- The contents of a value. -/
inductive Contents where
  | scalar (cell : Scalar)
  | selection (s : Selection)
  | bounded (b : Bounded)
  | rectangle (r : Rectangle)
  | series (s : Series)

namespace Contents

def kind : Contents → Kind
  | scalar cell => .scalar cell.base
  | selection _ => .selection
  | bounded _ => .bounded
  | rectangle r => .rectangle r.base
  | series s => .series s.base

def default : Kind → Contents
  | .scalar base => scalar (Scalar.default base)
  | .selection => selection {}
  | .bounded => bounded Bounded.unbounded
  | .rectangle base => rectangle (Rectangle.new base)
  | .series base => series { base }

/-- The text on the wire; reading it gives the contents back. -/
def encode : Contents → List Char
  | scalar cell => cell.encode
  | selection s => s.encode
  | bounded b => b.encode
  | rectangle r => r.encode
  | series s => s.encode

def display : Contents → List Char
  | scalar cell => cell.display
  | selection s => s.display
  | bounded b => Number.displayDouble b.value
  | rectangle r => r.display
  | series s => s.display

/-- Reads a string: a quoted token and nothing else, or all of the text without the blanks at
its ends. -/
def parseString (text : List Char) : Except ParseError (List Char) :=
  match Text.skipBlank text with
  | '"' :: _ => do
    let (token, rest) ← Token.next text
    Token.finish rest
    return token
  | _ => .ok (Text.trim text)

/-- Reads a text as contents of the same kind. -/
def parse (c : Contents) (text : List Char) : Except ParseError Contents :=
  match c with
  | scalar (.string _) => do return scalar (.string (String.ofList (← parseString text)))
  | scalar cell => do
    let (parsed, rest) ← Scalar.parse cell.base text
    Token.finish rest
    return scalar parsed
  | selection s => do
    let (token, rest) ← Token.next text
    Token.finish rest
    let index ← s.parseIndex token
    return selection { s with index }
  | bounded b => do
    let (parsed, rest) ← b.parse text
    Token.finish rest
    return bounded parsed
  | rectangle r => do
    let (parsed, rest) ← r.parse text
    Token.finish rest
    return rectangle parsed
  | series s => do return series (← s.parse text)

/-- The step by which a scalar shifts a selection. -/
def stepOf? (cell : Scalar) : Option Int32 := cell.asInt?.bind fun v => Number.int32? v.toInt

/-- What an operator makes of the contents. The kind stays. -/
def apply (op : Operator) (target operand : Contents) : Except OperationError Contents :=
  let incompatible := OperationError.incompatible target.kind.name operand.kind.name
  match target, operand with
  | scalar a, scalar b => scalar <$> a.apply op b
  | scalar a, selection b => scalar <$> a.apply op (.integer b.index)
  | scalar a, bounded b => scalar <$> a.apply op (.double b.value)
  | selection a, selection b => selection <$> a.shift op b.index
  | selection a, scalar b =>
    match stepOf? b with
    | some step => selection <$> a.shift op step
    | none => .error incompatible
  | bounded a, bounded b =>
    -- an assignment takes the range over, the other operators keep it
    if op = .assign then .ok (bounded b) else bounded <$> a.apply op b.value
  | bounded a, scalar b =>
    match b.asDouble? with
    | some x => bounded <$> a.apply op x
    | none => .error incompatible
  | rectangle a, rectangle b => rectangle <$> a.apply op b
  | series a, series b => series <$> a.apply op b
  | _, _ => .error incompatible

/-- Equal contents. Contents of unrelated kinds are not equal. -/
def agrees : Contents → Contents → Bool
  | scalar a, scalar b => a.agrees b
  | selection a, selection b => a.index == b.index
  | selection a, scalar b => b.asInt? == some a.index.toInt64
  | scalar b, selection a => b.asInt? == some a.index.toInt64
  | bounded a, bounded b => a.same b
  | bounded a, scalar b => (b.asDouble?.map (· == a.value)).getD false
  | scalar b, bounded a => (b.asDouble?.map (· == a.value)).getD false
  | rectangle a, rectangle b => a.agrees b
  | series a, series b => a.same b
  | _, _ => false

end Contents

/-- A typed, named state cell. -/
structure Value where
  name : String
  description : String
  flags : Flags := {}
  /-- Changed since it was last published. -/
  dirty : Bool := false
  contents : Contents

namespace Value

def new (name description : String) (kind : Kind) : Value :=
  { name, description, contents := Contents.default kind }

def kind (v : Value) : Kind := v.contents.kind

def typeWord (v : Value) : UInt32 := v.kind.code ||| v.flags.bits

/-- Lets peers change the value with set requests. -/
def writable (v : Value) : Value := { v with flags := { v.flags with writable := true } }

def text (v : Value) : String := String.ofList v.contents.encode

def display (v : Value) : String := String.ofList v.contents.display

/-! ## Views -/

def asDouble? (v : Value) : Option Float :=
  match v.contents with
  | .scalar cell => cell.asDouble?
  | .selection s => some (Number.ofInt s.index.toInt)
  | .bounded b => some b.value
  | _ => none

def asInt? (v : Value) : Option Int64 :=
  match v.contents with
  | .scalar cell => cell.asInt?
  | .selection s => some s.index.toInt64
  | _ => none

def asBool? (v : Value) : Option Bool :=
  match v.contents with
  | .scalar (.bool b) => some b
  | _ => none

def asString? (v : Value) : Option String :=
  match v.contents with
  | .scalar (.string text) => some text
  | .selection s => s.selected?
  | _ => none

/-- The parts of a rectangle as values of their own. -/
def parts (v : Value) : List Value :=
  match v.contents with
  | .rectangle r => r.parts.map fun (suffix, part) =>
    { name := v.name ++ "." ++ suffix
      description := v.description ++ " " ++ suffix
      flags := v.flags
      dirty := part.dirty
      contents := .scalar part.cell }
  | _ => []

/-! ## Changes -/

/-- New contents make a value dirty. -/
def withContents (v : Value) (contents : Contents) : Value := { v with contents, dirty := true }

def markDirty (v : Value) : Value := { v with dirty := true }

def clearDirty (v : Value) : Value := { v with dirty := false }

def set (text : String) (v : Value) : Except ParseError Value :=
  v.withContents <$> v.contents.parse text.toList

/-- Applies an operator with the contents of another value. -/
def apply (op : Operator) (operand : Contents) (v : Value) : Except OperationError Value :=
  v.withContents <$> v.contents.apply op operand

/-- What the operand of an operator is read as: a step for a selection, a number for a bounded
double, and otherwise what the value itself holds. -/
def operandShape : Contents → Contents
  | .selection _ => .scalar (.integer 0)
  | .bounded _ => .scalar (.double 0.0)
  | c => c

/-- Applies an operator with an operand given as text, as a set request does. -/
def applyText (op : Operator) (text : String) (v : Value) : Except OperationError Value :=
  if op = .assign then
    match v.set text with
    | .ok v => .ok v
    | .error e => .error (.parse e)
  else
    match (operandShape v.contents).parse text.toList with
    | .ok operand => v.apply op operand
    | .error e => .error (.parse e)

/-- Selects a symbol, or an index given as a number. -/
def select (symbol : String) (v : Value) : Except OperationError Value :=
  match v.contents with
  | .selection s =>
    match s.parseIndex symbol.toList with
    | .ok index => .ok (v.withContents (.selection { s with index }))
    | .error e => .error (.parse e)
  | _ => .error (.unsupported .assign "symbol assignment on non-selection")

/-- Puts one item, given as text, at each of the places of a series. -/
def setItems (indices : List Nat) (text : String) (v : Value) : Except OperationError Value :=
  match v.contents with
  | .series s =>
    let item : Except ParseError Scalar := do
      let (item, rest) ← Scalar.parse s.base text.toList
      Token.finish rest
      return item
    match item with
    | .ok item => (fun s => v.withContents (.series s)) <$> s.setAt indices item
    | .error e => .error (.parse e)
  | _ => .error (.unsupported .assign "indexed assignment on non-array")

def push (item : Scalar) (v : Value) : Except OperationError Value :=
  match v.contents with
  | .series s => (fun s => v.withContents (.series s)) <$> s.push item
  | _ => .error (.unsupported .add "push on non-array")

/-! ## Records -/

/-- The records that announce a value before it is first pushed. -/
def metaRecords (v : Value) : List Record :=
  .metaInfo v.typeWord v.name v.description :: match v.contents with
    | .selection s => s.symbols.map (Record.symbolInfo v.name)
    | _ => []

/-- The record that pushes a value. -/
def record (v : Value) : Record := .value v.name v.text

end Value

end Observatory
