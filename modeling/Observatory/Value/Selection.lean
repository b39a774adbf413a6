import Observatory.Value.Scalar
/-!
# Selections

An enumerated value: an index into an ordered list of symbols. Both operators move the index
around the list. Adding keeps the sign of the sum, so a negative step may leave a negative
index; subtracting folds a negative difference back into the list.
-/

namespace Observatory

/-- An index into an ordered list of symbols. -/
structure Selection where
  index : Int32 := 0
  symbols : List String := []
  deriving DecidableEq

namespace Selection

/-- The number of symbols, as far as it fits a word. -/
def size (s : Selection) : Int := min s.symbols.length Int32.maxValue.toInt

def inRange (s : Selection) (i : Int) : Bool := 0 ≤ i && i < s.size

def selected? (s : Selection) : Option String :=
  if 0 ≤ s.index.toInt then s.symbols[s.index.toInt.toNat]? else none

def position? (s : Selection) (symbol : String) : Option Int32 :=
  (s.symbols.idxOf? symbol).bind fun i => Number.int32? i

/-- The index that a token names: a symbol, or else a number that names one. Without symbols any
number will do. -/
def parseIndex (s : Selection) (token : List Char) : Except ParseError Int32 :=
  let unknown := ParseError.unknownSymbol (String.ofList token)
  match s.position? (String.ofList token) with
  | some i => .ok i
  | none =>
    match Number.readInt32 token with
    | some i => if s.symbols.isEmpty || s.inRange i.toInt then .ok i else .error unknown
    | none => .error unknown

def shift (op : Operator) (step : Int32) (s : Selection) : Except OperationError Selection :=
  let refused := OperationError.outOfRange (Number.ofInt step.toInt)
  match op with
  | .assign =>
    if s.symbols.isEmpty || s.inRange step.toInt then .ok { s with index := step }
    else .error refused
  | .add =>
    if s.symbols.isEmpty then .error .emptySelection
    else match Number.int32? (s.index.toInt + step.toInt) with
      | some sum => .ok { s with index := Int32.ofInt (sum.toInt.tmod s.size) }
      | none => .error refused
  | .subtract =>
    if s.symbols.isEmpty then .error .emptySelection
    else match Number.int32? (s.index.toInt - step.toInt) with
      | some difference =>
        if difference.toInt < 0 then
          .ok { s with index := Int32.ofInt (difference.toInt.emod s.size) }
        else .ok { s with index := difference }
      | none => .error refused

/-- The symbol, quoted if needed, or the index when it names none. -/
def encode (s : Selection) : List Char :=
  match s.selected? with
  | some symbol => Text.Quoted.encodeIfNeeded symbol.toList
  | none => Number.intText s.index.toInt

/-- The symbol, or the index when it names none. -/
def display (s : Selection) : List Char :=
  match s.selected? with
  | some symbol => symbol.toList
  | none => Number.intText s.index.toInt

end Selection

end Observatory
