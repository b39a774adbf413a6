import Observatory.Value.Registry
/-!
# Changes in place

The operations on values as the steps that they are made of, each of which reads or stores one
thing: an index, one of two angles, the cell of one part of a rectangle or its mark, one item of a
series, the mark of the value. A refusal ends the steps and takes none of them back.
-/

namespace Observatory

/-- Steps on a state of which any may be refused. What was stored before a refusal stays stored. -/
abbrev InPlace (σ ε α : Type) := ExceptT ε (StateM σ) α

namespace InPlace

variable {σ τ ε : Type}

/-- Steps on one part of the whole. -/
def within (part : σ → τ) (store : τ → σ → σ) (steps : InPlace τ ε Unit) : InPlace σ ε Unit :=
  fun whole =>
    let (result, changed) := steps (part whole)
    (result, store changed whole)

/-- Steps on a thing of their own, which is given back. -/
def aside (own : τ) (steps : InPlace τ ε Unit) : InPlace σ ε τ := fun whole =>
  match steps own with
  | (.ok _, changed) => (.ok changed, whole)
  | (.error e, _) => (.error e, whole)

/-- A reading, with the cause of a refusal in other words. -/
def refusedBy {ε' α : Type} (cause : ε → ε') (reading : Except ε α) : InPlace σ ε' α :=
  liftM (reading.mapError cause)

end InPlace

open InPlace

/-! ## Cells -/

namespace Scalar

def storeFirst (x : Float) : Scalar → Scalar
  | radec _ dec => radec x dec
  | altaz _ az => altaz x az
  | cell => cell

def storeSecond (x : Float) : Scalar → Scalar
  | radec ra _ => radec ra x
  | altaz alt _ => altaz alt x
  | cell => cell

/-- Applies an operator. Both angles of a pair are stored one after the other. -/
def applyInPlace (op : Operator) (operand : Scalar) : InPlace Scalar OperationError Unit := do
  let target ← get
  let incompatible := OperationError.incompatible target.base.name operand.base.name
  let need {α : Type} (x : Option α) : Except OperationError α :=
    match x with
    | some x => .ok x
    | none => .error incompatible
  match target with
  | string _ =>
    match op, operand with
    | .assign, string text => set (string text)
    | .assign, _ => throw incompatible
    | _, _ => throw (.unsupported op target.base.name)
  | bool _ =>
    match op, operand with
    | .assign, bool v => set (bool v)
    | .assign, _ => throw incompatible
    | _, _ => throw (.unsupported op target.base.name)
  | integer v =>
    let result ← combineLong op v.toInt64 (← need operand.wholeOperand?)
    match Number.int32? result.toInt with
    | some v => set (integer v)
    | none => throw (.outOfRange (Number.ofInt result.toInt))
  | long v =>
    let result ← combineLong op v (← need operand.wholeOperand?)
    set (long result)
  | time v => set (time (combine op v (← need operand.asDouble?)))
  | double v => set (double (combine op v (← need operand.asDouble?)))
  | float v => set (float (combine op v.toFloat (← need operand.asDouble?)).toFloat32)
  | radec a b | altaz a b =>
    let (x, y) ← need (pairOperand? target operand)
    modify (storeFirst (combine op a x))
    modify (storeSecond (combine op b y))

end Scalar

/-! ## Contents of more than one cell -/

namespace Selection

def shiftInPlace (op : Operator) (step : Int32) : InPlace Selection OperationError Unit := do
  let s ← get
  let refused := OperationError.outOfRange (Number.ofInt step.toInt)
  match op with
  | .assign =>
    if s.symbols.isEmpty || s.inRange step.toInt then set { s with index := step }
    else throw refused
  | .add =>
    if s.symbols.isEmpty then throw .emptySelection
    else match Number.int32? (s.index.toInt + step.toInt) with
      | some sum => set { s with index := Int32.ofInt (sum.toInt.tmod s.size) }
      | none => throw refused
  | .subtract =>
    if s.symbols.isEmpty then throw .emptySelection
    else match Number.int32? (s.index.toInt - step.toInt) with
      | some difference =>
        if difference.toInt < 0 then
          set { s with index := Int32.ofInt (difference.toInt.emod s.size) }
        else set { s with index := difference }
      | none => throw refused

end Selection

namespace Bounded

/-- Applies an operator to the number; the range stays. -/
def applyInPlace (op : Operator) (operand : Float) : InPlace Bounded OperationError Unit := do
  let b ← get
  let value := Scalar.combine op b.value operand
  if b.contains value then set { b with value } else throw (.outOfRange value)

end Bounded

namespace Rectangle

/-- Stores a cell in a part, and then marks the part. -/
def assignPart (cell : Scalar) : InPlace Part ParseError Unit := do
  modify fun p => { p with cell }
  modify fun p => { p with dirty := true }

/-- Applies an operator to the cell of a part, and then marks the part. -/
def applyPartInPlace (op : Operator) (operand : Part) : InPlace Part OperationError Unit := do
  within Part.cell (fun cell p => { p with cell }) (Scalar.applyInPlace op operand.cell)
  modify fun p => { p with dirty := true }

/-- The steps of one part after those of another, in the order in which the parts are written. -/
def eachPart {ε : Type} (steps : (Rectangle → Part) → InPlace Part ε Unit) :
    InPlace Rectangle ε Unit := do
  within Rectangle.x (fun x r => { r with x }) (steps Rectangle.x)
  within Rectangle.y (fun y r => { r with y }) (steps Rectangle.y)
  within Rectangle.width (fun width r => { r with width }) (steps Rectangle.width)
  within Rectangle.height (fun height r => { r with height }) (steps Rectangle.height)

def assignInPlace (cells : Rectangle) : InPlace Rectangle ParseError Unit :=
  eachPart fun part => assignPart (part cells).cell

/-- Applies an operator to the parts of a copy, and then stores the copy. -/
def applyInPlace (op : Operator) (operand : Rectangle) :
    InPlace Rectangle OperationError Unit := do
  let updated ← aside (← get) (eachPart fun part => applyPartInPlace op (part operand))
  set updated

end Rectangle

namespace Series

def pushInPlace (item : Scalar) : InPlace Series OperationError Unit := do
  let s ← get
  if item.base = s.base then set { s with items := s.items ++ [item] }
  else throw (.incompatible s.base.name item.base.name)

/-- Puts an item at one place after another, once all places are known to exist. -/
def setAtInPlace (indices : List Nat) (item : Scalar) : InPlace Series OperationError Unit := do
  let s ← get
  match indices.find? fun i => s.items.length ≤ i with
  | some i => throw (.indexOutOfBounds i s.items.length)
  | none => indices.forM fun i => modify fun s => { s with items := s.items.set i item }

def applyInPlace (op : Operator) (operand : Series) : InPlace Series OperationError Unit := do
  let s ← get
  if op = .assign then
    if operand.base = s.base then set { s with items := operand.items }
    else throw (.incompatible s.base.name operand.base.name)
  else throw (.unsupported op "array")

end Series

namespace Contents

/-- Steps on what a constructor holds. -/
def inside {τ ε : Type} (wrap : τ → Contents) (held : τ) (steps : InPlace τ ε Unit) :
    InPlace Contents ε Unit :=
  within (fun _ => held) (fun changed _ => wrap changed) steps

def setInPlace (text : List Char) : InPlace Contents ParseError Unit := do
  match ← get with
  | scalar (.string _) =>
    let read ← parseString text
    set (scalar (.string (String.ofList read)))
  | scalar cell =>
    let (parsed, rest) ← Scalar.parse cell.base text
    Token.finish rest
    set (scalar parsed)
  | selection s =>
    let (token, rest) ← Token.next text
    Token.finish rest
    let index ← s.parseIndex token
    set (selection { s with index })
  | bounded b =>
    let (parsed, rest) ← b.parse text
    Token.finish rest
    set (bounded parsed)
  | rectangle r =>
    let (parsed, rest) ← r.parse text
    Token.finish rest
    inside rectangle r (Rectangle.assignInPlace parsed)
  | series s =>
    let parsed ← s.parse text
    set (series parsed)

def applyInPlace (op : Operator) (operand : Contents) : InPlace Contents OperationError Unit := do
  let target ← get
  let incompatible := OperationError.incompatible target.kind.name operand.kind.name
  match target, operand with
  | scalar a, scalar b => inside scalar a (Scalar.applyInPlace op b)
  | scalar a, selection b => inside scalar a (Scalar.applyInPlace op (.integer b.index))
  | scalar a, bounded b => inside scalar a (Scalar.applyInPlace op (.double b.value))
  | selection a, selection b => inside selection a (Selection.shiftInPlace op b.index)
  | selection a, scalar b =>
    match stepOf? b with
    | some step => inside selection a (Selection.shiftInPlace op step)
    | none => throw incompatible
  | bounded a, bounded b =>
    if op = .assign then set (bounded b)
    else inside bounded a (Bounded.applyInPlace op b.value)
  | bounded a, scalar b =>
    match b.asDouble? with
    | some x => inside bounded a (Bounded.applyInPlace op x)
    | none => throw incompatible
  | rectangle a, rectangle b => inside rectangle a (Rectangle.applyInPlace op b)
  | series a, series b => inside series a (Series.applyInPlace op b)
  | _, _ => throw incompatible

def selectInPlace (symbol : List Char) : InPlace Contents OperationError Unit := do
  match ← get with
  | selection s =>
    let index ← refusedBy .parse (s.parseIndex symbol)
    set (selection { s with index })
  | _ => throw (.unsupported .assign "symbol assignment on non-selection")

def setItemsInPlace (indices : List Nat) (text : List Char) :
    InPlace Contents OperationError Unit := do
  match ← get with
  | series s =>
    let (item, rest) ← refusedBy .parse (Scalar.parse s.base text)
    refusedBy .parse (Token.finish rest)
    inside series s (Series.setAtInPlace indices item)
  | _ => throw (.unsupported .assign "indexed assignment on non-array")

def pushInPlace (item : Scalar) : InPlace Contents OperationError Unit := do
  match ← get with
  | series s => inside series s (Series.pushInPlace item)
  | _ => throw (.unsupported .add "push on non-array")

end Contents

/-! ## Values -/

namespace Value

/-- Steps on the contents, after which the value is marked. -/
def onContents {ε : Type} (steps : InPlace Contents ε Unit) : InPlace Value ε Unit := do
  within Value.contents (fun contents v => { v with contents }) steps
  modify fun v => { v with dirty := true }

def setInPlace (text : String) : InPlace Value ParseError Unit :=
  onContents (Contents.setInPlace text.toList)

/-- Applies an operator with the contents of another value. -/
def applyInPlace (op : Operator) (operand : Contents) : InPlace Value OperationError Unit :=
  onContents (Contents.applyInPlace op operand)

/-- Applies an operator with an operand given as text: the text is assigned to a value of its own,
which then is the operand. -/
def applyTextInPlace (op : Operator) (text : String) : InPlace Value OperationError Unit := do
  if op = .assign then ExceptT.adapt .parse (setInPlace text)
  else
    let v ← get
    let operand ← ExceptT.adapt .parse
      (aside (operandShape v.contents) (Contents.setInPlace text.toList))
    applyInPlace op operand

def selectInPlace (symbol : String) : InPlace Value OperationError Unit :=
  onContents (Contents.selectInPlace symbol.toList)

def setItemsInPlace (indices : List Nat) (text : String) : InPlace Value OperationError Unit :=
  onContents (Contents.setItemsInPlace indices text.toList)

def pushInPlace (item : Scalar) : InPlace Value OperationError Unit :=
  onContents (Contents.pushInPlace item)

end Value

/-- Takes over a pushed text, after which the copy is not marked. -/
def Replica.receiveInPlace (text : String) : InPlace Replica ParseError Unit := do
  within Replica.value (fun value _ => ⟨value⟩) (Value.setInPlace text)
  modify fun r => ⟨r.value.clearDirty⟩

/-! ## Calls -/

/-- A call that changes a value. -/
inductive Value.Call where
  | set (text : String)
  | apply (op : Operator) (operand : Contents)
  | applyText (op : Operator) (text : String)
  /-- Takes over what another value holds. -/
  | setFrom (other : Contents)
  | setDouble (x : Float)
  | setInteger (i : Int32)
  | setLong (i : Int64)
  | setBool (b : Bool)
  | setString (text : String)
  | select (symbol : String)
  | setItems (indices : List Nat) (text : String)
  | push (item : Scalar)

namespace Value.Call

/-- The steps of a call. A typed assignment is the assignment of a value that holds one cell. -/
def steps : Call → InPlace Value OperationError Unit
  | set text => ExceptT.adapt .parse (setInPlace text)
  | apply op operand => applyInPlace op operand
  | applyText op text => applyTextInPlace op text
  | setFrom other => applyInPlace .assign other
  | setDouble x => applyInPlace .assign (.scalar (.double x))
  | setInteger i => applyInPlace .assign (.scalar (.integer i))
  | setLong i => applyInPlace .assign (.scalar (.long i))
  | setBool b => applyInPlace .assign (.scalar (.bool b))
  | setString text => applyInPlace .assign (.scalar (.string text))
  | select symbol => selectInPlace symbol
  | setItems indices text => setItemsInPlace indices text
  | push item => pushInPlace item

end Value.Call

end Observatory
