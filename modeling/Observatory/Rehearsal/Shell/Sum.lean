import Observatory.Number.Integer
/-!
# Sums in scripts

The arithmetic of command shells: whole numbers, names of variables, and the signs of arithmetic
and of comparison. A division by zero has no value.
-/

namespace Observatory.Rehearsal.Shell

inductive Sum where
  | number (n : Int)
  | valueOf (name : String)
  | join (sign : String) (a b : Sum)
  deriving DecidableEq

namespace Sum

/-! ## Values -/

def truth (b : Bool) : Int := if b then 1 else 0

/-- What a sign makes of two numbers. Division drops the fraction. -/
def combine (sign : String) (a b : Int) : Option Int :=
  match sign with
  | "+" => some (a + b)
  | "-" => some (a - b)
  | "*" => some (a * b)
  | "/" => if b = 0 then none else some (a.tdiv b)
  | "%" => if b = 0 then none else some (a.tmod b)
  | "==" => some (truth (a == b))
  | "!=" => some (truth (a != b))
  | "<" => some (truth (a < b))
  | "<=" => some (truth (a ≤ b))
  | ">" => some (truth (b < a))
  | ">=" => some (truth (b ≤ a))
  | _ => none

def value (lookup : String → Int) : Sum → Option Int
  | number n => some n
  | valueOf name => some (lookup name)
  | join sign a b => do combine sign (← a.value lookup) (← b.value lookup)

/-! ## Reading -/

/-- The signs between two numbers, with how tightly they bind. -/
def signs : List (String × Nat) :=
  [("==", 1), ("!=", 1), ("<=", 2), (">=", 2), ("<", 2), (">", 2), ("+", 3), ("-", 3), ("*", 4),
    ("/", 4), ("%", 4)]

/-- The sign at the start of a text, how tightly it binds, and what follows it. -/
def sign? (cs : List Char) : Option (String × Nat × List Char) :=
  signs.findSome? fun (sign, tightness) =>
    if sign.toList = cs.take sign.length then some (sign, tightness, cs.drop sign.length) else none

def isNameChar (c : Char) : Bool := c.isAlphanum || c == '_'

def skip (cs : List Char) : List Char := cs.dropWhile fun c => c == ' ' || c == '\t' || c == '\n'

/-- A number or a name, with or without a dollar sign, and what follows it. -/
def readAtom (cs : List Char) : Option (Sum × List Char) :=
  let (word, rest) := (if cs.head? = some '$' then cs.tail else cs).span isNameChar
  match word, Number.readNat word with
  | [], _ => none
  | _, some n => some (number n, rest)
  | c :: _, none => if c.isDigit then none else some (valueOf (String.ofList word), rest)

mutual

def readOperand : Nat → List Char → Option (Sum × List Char)
  | 0, _ => none
  | fuel + 1, cs =>
    match skip cs with
    | '(' :: rest => do
      let (s, rest) ← readSum fuel 1 rest
      match skip rest with
      | ')' :: rest => return (s, rest)
      | _ => none
    | '-' :: rest => (readOperand fuel rest).map fun (s, rest) => (join "-" (number 0) s, rest)
    | '+' :: rest => readOperand fuel rest
    | '!' :: rest => (readOperand fuel rest).map fun (s, rest) => (join "==" s (number 0), rest)
    | cs => readAtom cs

/-- Reads a sum of signs that bind at least so tightly. -/
def readSum : Nat → Nat → List Char → Option (Sum × List Char)
  | 0, _, _ => none
  | fuel + 1, least, cs => do
    let (a, rest) ← readOperand fuel cs
    readJoined fuel least a rest

/-- Reads what is joined to a sum by signs that bind at least so tightly. -/
def readJoined : Nat → Nat → Sum → List Char → Option (Sum × List Char)
  | 0, _, _, _ => none
  | fuel + 1, least, a, cs =>
    match sign? (skip cs) with
    | none => some (a, cs)
    | some (sign, tightness, rest) =>
      if least ≤ tightness then do
        let (b, rest) ← readSum fuel (tightness + 1) rest
        readJoined fuel least (join sign a b) rest
      else some (a, cs)

end

def parse (cs : List Char) : Option Sum :=
  match readSum (3 * cs.length + 3) 1 cs with
  | some (s, rest) => if (skip rest).isEmpty then some s else none
  | none => none

end Sum

end Observatory.Rehearsal.Shell
