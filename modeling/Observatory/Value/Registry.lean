import Observatory.Value.Basic
/-!
# Values of one endpoint

The values an endpoint owns, in the order of their creation, and the copies it keeps of the
values of its peers.
-/

namespace Observatory

/-- The values of one endpoint, in the order of their creation. -/
structure Registry where
  values : List Value := []

namespace Registry

def get? (name : String) (r : Registry) : Option Value := r.values.find? fun v => v.name == name

def contains (name : String) (r : Registry) : Bool := (r.get? name).isSome

/-- Adds a value under a new name. It starts dirty, so the next sweep publishes it. -/
def create (v : Value) (r : Registry) : Except OperationError Registry :=
  if r.contains v.name then .error (.duplicate v.name) else .ok ⟨r.values ++ [v.markDirty]⟩

/-- Puts a value in the place of the first one with the given name. -/
def replaceFirst (name : String) (v : Value) : List Value → List Value
  | [] => []
  | w :: ws => if w.name == name then v :: ws else w :: replaceFirst name v ws

/-- Puts a value in the place of the one with the given name. -/
def put (name : String) (v : Value) (r : Registry) : Registry := ⟨replaceFirst name v r.values⟩

/-- Changes the value of a name by an operation that may refuse. -/
def update (name : String) (f : Value → Except OperationError Value) (r : Registry) :
    Except OperationError Registry :=
  match r.get? name with
  | none => .error (.unknownValue name)
  | some v => (fun v => r.put name v) <$> f v

def set (name text : String) (r : Registry) : Except OperationError Registry :=
  r.update name fun v => match v.set text with
    | .ok v => .ok v
    | .error e => .error (.parse e)

def dirty (r : Registry) : List Value := r.values.filter Value.dirty

def hasDirty (r : Registry) : Bool := r.values.any Value.dirty

def clearDirty (r : Registry) : Registry := ⟨r.values.map Value.clearDirty⟩

end Registry

/-! ## Copies of a peer's values -/

/-- The copy of a value of a peer. Only records of that peer change it. -/
structure Replica where
  value : Value

namespace Replica

/-- A copy as the peer announced it, not yet pushed. -/
def announce (word : UInt32) (name description : String) : Except ParseError Replica := do
  let kind ← Kind.ofCode word
  return ⟨{ Value.new name description kind with flags := .ofBits word }⟩

def receive (text : String) (r : Replica) : Except ParseError Replica := do
  return ⟨(← r.value.set text).clearDirty⟩

def addSymbol (symbol : String) (r : Replica) : Replica :=
  match r.value.contents with
  | .selection s =>
    ⟨{ r.value with contents := .selection { s with symbols := s.symbols ++ [symbol] } }⟩
  | _ => r

end Replica

end Observatory
