import Observatory.Number.Integer
/-!
# Reading JSON

A reader for the whole grammar of JSON. A string that names half of a surrogate pair has no
text, and a number keeps its spelling: what reads a field decides what it needs.
-/

namespace Observatory

/-- A JSON text taken apart. -/
inductive Json where
  | null
  | bool (b : Bool)
  /-- A number as it is spelled. -/
  | number (spelling : List Char)
  /-- A string, without a text when a surrogate in it has no partner. -/
  | string (text : Option String)
  | array (items : List Json)
  /-- The fields in their order, repeated names included. -/
  | object (fields : List (Option String × Json))

namespace Json

/-! ## Spaces, numbers and strings -/

def isSpace (c : Char) : Bool := c == ' ' || c == '\n' || c == '\t' || c == '\r'

def skipSpace (cs : List Char) : List Char := cs.dropWhile isSpace

/-- At least one digit and what follows the digits. -/
def digits? (cs : List Char) : Option (List Char × List Char) :=
  match cs.takeWhile Char.isDigit with
  | [] => none
  | ds => some (ds, cs.dropWhile Char.isDigit)

/-- The digits in front of the point: a lone zero, or digits that do not start with one. -/
def whole? (cs : List Char) : Option (List Char × List Char) :=
  match digits? cs with
  | some ('0' :: _ :: _, _) => none
  | r => r

/-- A point with digits behind it, or nothing. -/
def fraction? : List Char → Option (List Char × List Char)
  | '.' :: cs => (digits? cs).map fun (ds, rest) => ('.' :: ds, rest)
  | cs => some ([], cs)

def exponent? : List Char → Option (List Char × List Char)
  | c :: cs =>
    if c = 'e' || c = 'E' then
      match cs with
      | '+' :: cs => (digits? cs).map fun (ds, rest) => ('e' :: ds, rest)
      | '-' :: cs => (digits? cs).map fun (ds, rest) => ('e' :: '-' :: ds, rest)
      | cs => (digits? cs).map fun (ds, rest) => ('e' :: ds, rest)
    else some ([], c :: cs)
  | [] => some ([], [])

def unsigned? (cs : List Char) : Option (List Char × List Char) := do
  let (whole, rest) ← whole? cs
  let (fraction, rest) ← fraction? rest
  let (exponent, rest) ← exponent? rest
  return (whole ++ fraction ++ exponent, rest)

def number? : List Char → Option (List Char × List Char)
  | '-' :: cs => (unsigned? cs).map fun (ds, rest) => ('-' :: ds, rest)
  | cs => unsigned? cs

def hexDigit? (c : Char) : Option Nat :=
  if '0' ≤ c && c ≤ '9' then some (c.toNat - 48)
  else if 'a' ≤ c && c ≤ 'f' then some (c.toNat - 87)
  else if 'A' ≤ c && c ≤ 'F' then some (c.toNat - 55)
  else none

def hex4? (a b c d : Char) : Option Nat := do
  return (((← hexDigit? a) * 16 + (← hexDigit? b)) * 16 + (← hexDigit? c)) * 16 + (← hexDigit? d)

/-- The character of a one-letter escape. -/
def escape? : Char → Option Nat
  | '"' => some 0x22
  | '\\' => some 0x5c
  | '/' => some 0x2f
  | 'b' => some 0x08
  | 'f' => some 0x0c
  | 'n' => some 0x0a
  | 'r' => some 0x0d
  | 't' => some 0x09
  | _ => none

/-- Reads up to the closing quote. The code points and escaped units read so far come last one
first. -/
def unitsFrom (acc : List Nat) : List Char → Option (List Nat × List Char)
  | [] => none
  | '"' :: rest => some (acc.reverse, rest)
  | '\\' :: 'u' :: a :: b :: c :: d :: rest =>
    match hex4? a b c d with
    | some unit => unitsFrom (unit :: acc) rest
    | none => none
  | '\\' :: c :: rest =>
    match escape? c with
    | some unit => unitsFrom (unit :: acc) rest
    | none => none
  | c :: rest => if c = '\\' || c.toNat < 0x20 then none else unitsFrom (c.toNat :: acc) rest

def isHigh (u : Nat) : Bool := 0xd800 ≤ u && u < 0xdc00

def isLow (u : Nat) : Bool := 0xdc00 ≤ u && u < 0xe000

/-- Joins surrogate pairs; a half without its partner leaves no text. -/
def join : List Nat → Option (List Char)
  | [] => some []
  | [u] => if isHigh u || isLow u then none else some [Char.ofNat u]
  | u :: v :: rest =>
    if isHigh u then
      if isLow v then
        (join rest).map (Char.ofNat (0x10000 + (u - 0xd800) * 0x400 + (v - 0xdc00)) :: ·)
      else none
    else if isLow u then none
    else (join (v :: rest)).map (Char.ofNat u :: ·)

/-- Reads the text behind an opening quote. -/
def string? (cs : List Char) : Option (Option String × List Char) :=
  (unitsFrom [] cs).map fun (units, rest) => ((join units).map String.ofList, rest)

/-! ## Values -/

def afterWord? : List Char → List Char → Option (List Char)
  | [], cs => some cs
  | w :: ws, c :: cs => if w = c then afterWord? ws cs else none
  | _ :: _, [] => none

mutual

/-- Reads one value. Each value takes at least one character, so `fuel`, one more than the
length of the text, is never used up. -/
def value? : Nat → List Char → Option (Json × List Char)
  | 0, _ => none
  | fuel + 1, cs =>
    match skipSpace cs with
    | [] => none
    | '"' :: rest => (string? rest).map fun (s, rest) => (string s, rest)
    | '[' :: rest =>
      match skipSpace rest with
      | ']' :: rest => some (array [], rest)
      | rest => (items? fuel rest).map fun (items, rest) => (array items, rest)
    | '\x7b' :: rest =>
      match skipSpace rest with
      | '\x7d' :: rest => some (object [], rest)
      | rest => (fields? fuel rest).map fun (fields, rest) => (object fields, rest)
    | 'n' :: rest => (afterWord? "ull".toList rest).map fun rest => (null, rest)
    | 't' :: rest => (afterWord? "rue".toList rest).map fun rest => (bool true, rest)
    | 'f' :: rest => (afterWord? "alse".toList rest).map fun rest => (bool false, rest)
    | cs => (number? cs).map fun (spelling, rest) => (number spelling, rest)

/-- Reads the items of an array up to its closing bracket. -/
def items? : Nat → List Char → Option (List Json × List Char)
  | 0, _ => none
  | fuel + 1, cs => do
    let (item, rest) ← value? fuel cs
    match skipSpace rest with
    | ']' :: rest => return ([item], rest)
    | ',' :: rest =>
      let (items, rest) ← items? fuel rest
      return (item :: items, rest)
    | _ => none

/-- Reads the fields of an object up to its closing brace. -/
def fields? : Nat → List Char → Option (List (Option String × Json) × List Char)
  | 0, _ => none
  | fuel + 1, cs =>
    match skipSpace cs with
    | '"' :: rest => do
      let (name, rest) ← string? rest
      match skipSpace rest with
      | ':' :: rest =>
        let (item, rest) ← value? fuel rest
        match skipSpace rest with
        | '\x7d' :: rest => return ([(name, item)], rest)
        | ',' :: rest =>
          let (fields, rest) ← fields? fuel rest
          return ((name, item) :: fields, rest)
        | _ => none
      | _ => none
    | _ => none

end

/-- Reads a text that is one value and nothing else. -/
def parse? (text : String) : Option Json := do
  let cs := text.toList
  let (value, rest) ← value? (cs.length + 1) cs
  if (skipSpace rest).isEmpty then some value else none

/-! ## Fields -/

/-- A natural number below a bound, spelled without sign, point and exponent. -/
def asNat? (bound : Nat) : Json → Option Nat
  | number spelling => (Number.readNat spelling).bind fun n => if n < bound then some n else none
  | _ => none

def asString? : Json → Option String
  | string text => text
  | _ => none

/-- The fields of a record with the given field names: an object, in which other names are passed
over and no given one is repeated, or an array that holds the first fields in order. -/
def record? (names : List String) : Json → Option (List (String × Json))
  | array items => if names.length < items.length then none else some (names.zip items)
  | object fields => do
    let named ← fields.mapM fun (name, item) => name.map fun name => (name, item)
    let known := named.filter fun (name, _) => names.contains name
    if (known.map Prod.fst).Nodup then some known else none
  | _ => none

end Json

end Observatory
