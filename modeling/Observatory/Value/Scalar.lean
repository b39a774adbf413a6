import Observatory.Number.Angle
import Observatory.Number.Rounded
import Observatory.Token
import Observatory.Value.Kind
import Observatory.Value.Operator
/-!
# Scalars

One cell of a value: its text on the wire and on the screen, and what an operator makes of it.
-/

namespace Observatory

/-! ## Refused operations -/

/-- Why an operation on a value is refused. -/
inductive OperationError where
  /-- The operator means nothing for this kind of value. -/
  | unsupported (op : Operator) (subject : String)
  | incompatible (target operand : String)
  /-- A selection without entries cannot be shifted. -/
  | emptySelection
  | outOfRange (result : Float)
  | indexOutOfBounds (index size : Nat)
  | notWritable (name : String)
  | unknownValue (name : String)
  | duplicate (name : String)
  | rejected (reason : String)
  | parse (e : ParseError)
  deriving Repr

namespace OperationError

def message : OperationError → String
  | unsupported op subject =>
    "operator '" ++ op.symbol.toString ++ s!"' is not supported by {subject} values"
  | incompatible target operand => s!"cannot combine {target} with {operand}"
  | emptySelection => "selection has no entries"
  | outOfRange result => "result " ++ plainText result ++ " is out of range"
  | indexOutOfBounds index size => s!"index {index} is past the end of an array of {size}"
  | notWritable name => s!"value '{name}' is not writable"
  | unknownValue name => s!"unknown value '{name}'"
  | duplicate name => s!"value '{name}' already exists"
  | rejected reason => s!"rejected: {reason}"
  | parse e => e.message

end OperationError

/-! ## Cells -/

/-- One cell of a value. -/
inductive Scalar where
  | string (text : String)
  | integer (v : Int32)
  | time (v : Float)
  | double (v : Float)
  | float (v : Float32)
  | bool (v : Bool)
  | long (v : Int64)
  | radec (ra dec : Float)
  | altaz (alt az : Float)

def nan : Float := Float.ofBits 0x7ff8000000000000

def nanSingle : Float32 := Float32.ofBits 0x7fc00000

namespace Scalar

def default : Base → Scalar
  | .string => string ""
  | .integer => integer 0
  | .time => time nan
  | .double => double nan
  | .float => float nanSingle
  | .bool => bool false
  | .long => long 0
  | .radec => radec nan nan
  | .altaz => altaz nan nan

def base : Scalar → Base
  | string _ => .string
  | integer _ => .integer
  | time _ => .time
  | double _ => .double
  | float _ => .float
  | bool _ => .bool
  | long _ => .long
  | radec _ _ => .radec
  | altaz _ _ => .altaz

theorem base_default (b : Base) : (default b).base = b := by
  cases b <;> rfl

/-! ## Reading -/

def toDegrees (token : List Char) : Except ParseError Float :=
  match Number.readDegrees token with
  | some x => .ok x
  | none => .error (.invalidCoordinate (String.ofList token))

def toAscension (token : List Char) : Except ParseError Float :=
  match Number.readAscension token with
  | some x => .ok x
  | none => .error (.invalidCoordinate (String.ofList token))

/-- Two angles. With the second one left out both are the first. -/
def parsePair (first : List Char → Except ParseError Float) (rest : List Char) :
    Except ParseError ((Float × Float) × List Char) := do
  let (a, rest) ← Token.nextAs first rest
  if Token.atEnd rest then return ((a, a), rest)
  let (b, rest) ← Token.nextAs toDegrees rest
  return ((a, b), rest)

def parse (b : Base) (rest : List Char) : Except ParseError (Scalar × List Char) :=
  match b with
  | .string => Token.nextAs (fun token => .ok (string (String.ofList token))) rest
  | .integer => Token.nextAs (fun token => integer <$> Token.toInt32 token) rest
  | .time => Token.nextAs (fun token => time <$> Token.toDouble token) rest
  | .double => Token.nextAs (fun token => double <$> Token.toDouble token) rest
  | .float => Token.nextAs (fun token => float <$> Token.toSingle token) rest
  | .bool => Token.nextAs (fun token => bool <$> Token.toBool token) rest
  | .long => Token.nextAs (fun token => long <$> Token.toInt64 token) rest
  | .radec => do
    let ((ra, dec), rest) ← parsePair toAscension rest
    return (radec ra dec, rest)
  | .altaz => do
    let ((alt, az), rest) ← parsePair toDegrees rest
    return (altaz alt az, rest)

/-! ## Writing -/

/-- The words of the two truth values. -/
def boolText (v : Bool) : List Char := if v then "true".toList else "false".toList

/-- The text on the wire. -/
def encode : Scalar → List Char
  | string text => Text.Quoted.encode text.toList
  | integer v => Number.intText v.toInt
  | long v => Number.intText v.toInt
  | time v => Number.wireDouble v
  | double v => Number.wireDouble v
  | float v => Number.wireSingle v
  | bool v => boolText v
  | radec a b => Number.wireDouble a ++ ' ' :: Number.wireDouble b
  | altaz a b => Number.wireDouble a ++ ' ' :: Number.wireDouble b

def display : Scalar → List Char
  | string text => text.toList
  | integer v => Number.intText v.toInt
  | long v => Number.intText v.toInt
  | time v => Number.displayDouble v
  | double v => Number.displayDouble v
  | float v => Number.displayDouble v.toFloat
  | bool v => boolText v
  | radec a b => Number.displayDouble a ++ ' ' :: Number.displayDouble b
  | altaz a b => Number.displayDouble a ++ ' ' :: Number.displayDouble b

/-! ## Views -/

/-- The cell as a double, if it is a number. -/
def asDouble? : Scalar → Option Float
  | integer v => some (Number.ofInt v.toInt)
  | long v => some (Number.ofInt v.toInt)
  | time v => some v
  | double v => some v
  | float v => some v.toFloat
  | _ => none

/-- The cell as a whole number, if it is one by its type. -/
def asInt? : Scalar → Option Int64
  | integer v => some v.toInt64
  | long v => some v
  | _ => none

/-- Equality of the contents, cell by cell; a number that is none differs from itself. -/
def same : Scalar → Scalar → Bool
  | string a, string b => a == b
  | integer a, integer b => a == b
  | time a, time b => a == b
  | double a, double b => a == b
  | float a, float b => a == b
  | bool a, bool b => a == b
  | long a, long b => a == b
  | radec a b, radec c d => a == c && b == d
  | altaz a b, altaz c d => a == c && b == d
  | _, _ => false

/-- Equal contents, or numbers of different types that are equal as doubles. -/
def agrees (a b : Scalar) : Bool :=
  a.same b || match a.asDouble?, b.asDouble? with
    | some x, some y => x == y
    | _, _ => false

/-! ## Operators -/

/-- What an operator makes of two doubles. -/
def combine (op : Operator) (current operand : Float) : Float :=
  match op with
  | .assign => operand
  | .add => current + operand
  | .subtract => current - operand

/-- What an operator makes of two whole numbers, without a bound. -/
def combineInt (op : Operator) (current operand : Int) : Int :=
  match op with
  | .assign => operand
  | .add => current + operand
  | .subtract => current - operand

/-- The result of an operator on whole numbers, if it fits 64 bits. -/
def combineLong (op : Operator) (current operand : Int64) : Except OperationError Int64 :=
  match Number.int64? (combineInt op current.toInt operand.toInt) with
  | some v => .ok v
  | none => .error (.outOfRange (Number.ofInt current.toInt))

/-- The operand of a whole number: a whole number, or a double without its fraction. -/
def wholeOperand? (operand : Scalar) : Option Int64 :=
  match operand.asInt? with
  | some v => some v
  | none => operand.asDouble?.map Number.truncateInt64

/-- The operands of a pair: another pair of the same kind, or one number for both. -/
def pairOperand? (target operand : Scalar) : Option (Float × Float) :=
  match target, operand with
  | radec _ _, radec a b => some (a, b)
  | altaz _ _, altaz a b => some (a, b)
  | _, _ => operand.asDouble?.map fun x => (x, x)

/-- What an operator makes of a cell. The kind of the cell stays. -/
def apply (op : Operator) (target operand : Scalar) : Except OperationError Scalar :=
  let incompatible := OperationError.incompatible target.base.name operand.base.name
  let need {α : Type} (x : Option α) : Except OperationError α :=
    match x with
    | some x => .ok x
    | none => .error incompatible
  match target with
  | string _ =>
    match op, operand with
    | .assign, string text => .ok (string text)
    | .assign, _ => .error incompatible
    | _, _ => .error (.unsupported op target.base.name)
  | bool _ =>
    match op, operand with
    | .assign, bool v => .ok (bool v)
    | .assign, _ => .error incompatible
    | _, _ => .error (.unsupported op target.base.name)
  | integer v => do
    -- computed in the wider word, so that only the result has to fit
    let result ← combineLong op v.toInt64 (← need operand.wholeOperand?)
    match Number.int32? result.toInt with
    | some v => return integer v
    | none => throw (.outOfRange (Number.ofInt result.toInt))
  | long v => do return long (← combineLong op v (← need operand.wholeOperand?))
  | time v => do return time (combine op v (← need operand.asDouble?))
  | double v => do return double (combine op v (← need operand.asDouble?))
  | float v => do return float (combine op v.toFloat (← need operand.asDouble?)).toFloat32
  | radec a b => do
    let (x, y) ← need (pairOperand? target operand)
    return radec (combine op a x) (combine op b y)
  | altaz a b => do
    let (x, y) ← need (pairOperand? target operand)
    return altaz (combine op a x) (combine op b y)

end Scalar

end Observatory
