import Observatory.Number.Integer
import Observatory.Rehearsal.Paths
/-!
# Conditions of scripts

The conditions that a script tests: texts, numbers and files, put together by "not", "and" and "or".
A word that looks like an operator is one wherever an operator can stand.
-/

namespace Observatory.Rehearsal.Shell.Condition

inductive Role where
  | operand
  | one
  | two
  | negation
  | conjunction
  | disjunction
  | opening
  | closing
  | missing
  deriving DecidableEq

def ones : List String :=
  ["-r", "-w", "-x", "-e", "-f", "-d", "-c", "-b", "-p", "-u", "-g", "-k", "-s", "-t", "-z", "-n",
    "-h", "-O", "-G", "-L", "-S"]

def twos : List String :=
  ["=", "!=", "<", ">", "-eq", "-ne", "-ge", "-gt", "-le", "-lt", "-nt", "-ot", "-ef"]

def roleOf (word : String) : Role :=
  if word = "!" then .negation
  else if word = "-a" then .conjunction
  else if word = "-o" then .disjunction
  else if word = "(" then .opening
  else if word = ")" then .closing
  else if ones.contains word then .one
  else if twos.contains word then .two
  else .operand

/-- What the first word is where it stands. -/
def roleAt : List String → Role
  | [] => .missing
  | [word] => if roleOf word = .one || roleOf word = .opening then .operand else roleOf word
  | [word, _] => roleOf word
  | word :: next :: _ => if roleOf word = .one && roleOf next = .two then .operand else roleOf word

def number (text : String) : Except String Int :=
  match Number.readInt text.trimAscii.toString.toList with
  | some n => .ok n
  | none => .error s!"Illegal number: {text}"

def ofFile (op path : String) : Bool :=
  match op, placeOf path with
  | _, .missing | _, .beyondFile => false
  | "-d", place => place = .directory
  | "-f", place => place != .directory && !path.startsWith "/dev/"
  | "-x", .plainFile => false
  | "-c", _ => path.startsWith "/dev/"
  | "-s", _ => !path.startsWith "/dev/"
  | op, _ => ["-e", "-r", "-w", "-x"].contains op

def unary (op operand : String) : Bool :=
  match op with
  | "-z" => operand.isEmpty
  | "-n" => !operand.isEmpty
  | "-t" => false
  | op => ofFile op operand

def binary (op a b : String) : Except String Bool := do
  match op with
  | "=" => return a == b
  | "!=" => return a != b
  | "<" => return a < b
  | ">" => return b < a
  | "-eq" => return (← number a) == (← number b)
  | "-ne" => return (← number a) != (← number b)
  | "-ge" => return (← number b) ≤ (← number a)
  | "-gt" => return (← number b) < (← number a)
  | "-le" => return (← number a) ≤ (← number b)
  | "-lt" => return (← number a) < (← number b)
  | _ => return false

/-- A condition's value, and the words from the last one that was used. -/
abbrev Reading := Except String (Bool × List String)

mutual

def anyOf : Nat → List String → Role → Reading
  | 0, ws, _ => .ok (false, ws)
  | fuel + 1, ws, role => do
    let (a, ws) ← allOf fuel ws role
    if roleAt ws.tail = .disjunction then
      let (b, ws) ← anyOf fuel (ws.drop 2) (roleAt (ws.drop 2))
      return (a || b, ws)
    else return (a, ws)

def allOf : Nat → List String → Role → Reading
  | 0, ws, _ => .ok (false, ws)
  | fuel + 1, ws, role => do
    let (a, ws) ← negated fuel ws role
    if roleAt ws.tail = .conjunction then
      let (b, ws) ← allOf fuel (ws.drop 2) (roleAt (ws.drop 2))
      return (a && b, ws)
    else return (a, ws)

/-- A condition that may be negated. -/
def negated : Nat → List String → Role → Reading
  | 0, ws, _ => .ok (false, ws)
  | fuel + 1, ws, role =>
    if role = .negation then do
      let next := roleAt ws.tail
      let (a, ws) ← negated fuel (if next = .missing then ws else ws.tail) next
      return (!a, ws)
    else primary fuel ws role

/-- A condition without signs around it. -/
def primary : Nat → List String → Role → Reading
  | 0, ws, _ => .ok (false, ws)
  | fuel + 1, ws, role =>
    match ws, role with
    | [], _ | _, .missing => .ok (false, ws)
    | _ :: ws, .opening => do
      if roleAt ws = .closing then return (false, ws)
      else
        let (a, ws) ← anyOf fuel ws (roleAt ws)
        if roleAt ws.tail = .closing then return (a, ws.tail) else throw "closing paren expected"
    | op :: rest, role =>
      match role, rest with
      | .one, [] => .error s!"{op}: argument expected"
      | .one, operand :: _ => .ok (unary op operand, rest)
      | _, sign :: behind =>
        if roleAt rest = .two then
          match behind with
          | [] => .error s!"{sign}: argument expected"
          | b :: _ => do return (← binary sign op b, behind)
        else .ok (!op.isEmpty, op :: rest)
      | _, [] => .ok (!op.isEmpty, [op])

end

def whole (ws : List String) (role : Role) : Except String Bool := do
  let (a, ws) ← anyOf (4 * ws.length + 4) ws role
  match ws with
  | used :: _ :: _ => throw s!"{used}: unexpected operator"
  | _ => return a

/-- The value of a condition. With three or four words the number of words decides first. -/
def holds : Nat → List String → Except String Bool
  | 0, _ | _, [] => .ok false
  | fuel + 1, ws =>
    if ws.length = 3 && (ws.drop 1).head?.any fun op => roleOf op = .two then whole ws .operand
    else if (ws.length = 3 || ws.length = 4) && ws.head? = some "(" && ws.getLast? = some ")" then
      whole ws.tail.dropLast (roleAt ws.tail.dropLast)
    else if (ws.length = 3 || ws.length = 4) && ws.head? = some "!" then do
      return !(← holds fuel ws.tail)
    else whole ws (roleAt ws)

end Observatory.Rehearsal.Shell.Condition
