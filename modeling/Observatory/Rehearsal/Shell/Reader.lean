import Observatory.Rehearsal.Shell.Script
/-!
# Reading scripts

A script is cut into words, operators and redirections, and these are put together as the grammar
of the shell says. Lines are read one after another: those in front of a line that is no script
are carried out.
-/

namespace Observatory.Rehearsal.Shell

/-! ## Parameters -/

/-- The signs by which a parameter in braces is changed, the longer ones first. -/
def alterations : List String := [":-", ":=", ":+", "-", "=", "+", "%%", "%", "##", "#"]

/-- The parameter that stands between braces. -/
def braced? (quoted : Bool) (cs : List Char) : Option Piece :=
  let plain (text : List Char) : Bool := !text.any ['$', '"', '\\', '\'', '\x60', '\x7b'].contains
  match cs with
  | '#' :: c :: name =>
    if (c :: name).all isNameChar then some (.altered quoted (String.ofList (c :: name)) "" [])
    else none
  | cs =>
    let (name, rest) := cs.span isNameChar
    let (name, rest) := match name, rest with
      | [], c :: rest => ([c], rest)
      | name, rest => (name, rest)
    if name.isEmpty then none
    else if rest.isEmpty then some (.parameter quoted (String.ofList name))
    else (alterations.find? fun sign => sign.toList = rest.take sign.length).bind fun sign =>
      let text := rest.drop sign.length
      if plain text then some (.altered quoted (String.ofList name) sign text) else none

/-- The text up to the parenthesis that closes it, inside so many others, and what follows.
Parentheses between single quotes do not count. -/
def closed? : Bool → Nat → List Char → Option (List Char × List Char)
  | _, _, [] => none
  | quoted, depth, c :: rest =>
    if c = ')' && depth = 0 && !quoted then some ([], rest)
    else
      let depth := if quoted then depth
        else if c = '(' then depth + 1 else if c = ')' then depth - 1 else depth
      let quoted := if c = '\'' then !quoted else quoted
      (closed? quoted depth rest).map fun (cs, rest) => (c :: cs, rest)

/-- The text up to the backquote that closes it, and what follows. -/
def backquoted? : List Char → Option (List Char × List Char)
  | [] => none
  | '\x60' :: rest => some ([], rest)
  | '\\' :: c :: rest =>
    (backquoted? rest).map fun (cs, rest) =>
      (if ['$', '\\', '\x60'].contains c then c :: cs else '\\' :: c :: cs, rest)
  | c :: rest => (backquoted? rest).map fun (cs, rest) => (c :: cs, rest)

/-- What a dollar sign in front of a text stands for. -/
def dollar? (quoted : Bool) : List Char → Option (Piece × List Char)
  | [] => none
  | '{' :: rest =>
    match rest.span (· != '}') with
    | (inside, _ :: rest) => (braced? quoted inside).map (·, rest)
    | _ => none
  | '(' :: rest => do
    let (text, behind) ← closed? false 0 rest
    match text, text.getLast? with
    | '(' :: inner, some ')' =>
      match Sum.parse inner.dropLast with
      | some s => return (.sum quoted s, behind)
      | none => return (.output quoted text, behind)
    | _, _ => return (.output quoted text, behind)
  | c :: rest =>
    if c.isDigit || ['?', '$', '#', '!', '@', '*'].contains c then
      some (.parameter quoted c.toString, rest)
    else if isNameChar c then
      let (name, rest) := rest.span isNameChar
      some (.parameter quoted (String.ofList (c :: name)), rest)
    else none

/-! ## Tokens -/

inductive SyntaxError where
  | unterminated
  | unterminatedBackquotes
  | unterminatedBraces
  | badSubstitution
  | badName
  | badLoop
  | unexpected (found : String) (expected : Option String)

namespace SyntaxError

def message : SyntaxError → String
  | unterminated => "Syntax error: Unterminated quoted string"
  | unterminatedBackquotes => "Syntax error: EOF in backquote substitution"
  | unterminatedBraces => "Syntax error: Missing '\x7d'"
  | badSubstitution => "Bad substitution"
  | badName => "Syntax error: Bad function name"
  | badLoop => "Syntax error: Bad for loop variable"
  | unexpected found none => s!"Syntax error: {found} unexpected"
  | unexpected found (some expected) => s!"Syntax error: {found} unexpected (expecting {expected})"

end SyntaxError

/-- The smallest parts of a script. -/
inductive Token where
  | word (w : Word)
  | operator (text : String)
  | redirect (descriptor : Nat) (text : String)
  deriving DecidableEq

/-- The characters that end a word. -/
def endsWord (c : Char) : Bool := [' ', '\t', '\n', ';', '&', '|', '(', ')', '<', '>'].contains c

/-- Reads a word, from inside double quotes or from outside them. -/
def readWord : Nat → Bool → List Char → Except SyntaxError (Word × List Char)
  | 0, _, _ => .error .unterminated
  | fuel + 1, quoted, cs =>
    let next (quoted : Bool) (p : Piece) (rest : List Char) := do
      let (w, rest) ← readWord fuel quoted rest
      return (p :: w, rest)
    match quoted, cs with
    | true, [] => .error .unterminated
    | false, [] => .ok ([], [])
    | true, '"' :: rest => next false (.text true []) rest
    | false, '"' :: rest => next true (.text true []) rest
    | false, '\'' :: rest =>
      match rest.span (· != '\'') with
      | (text, _ :: rest) => next false (.text true text) rest
      | _ => .error .unterminated
    | true, '\\' :: c :: rest =>
      if c = '\n' then readWord fuel true rest
      else if ['$', '"', '\\', '\x60'].contains c then next true (.text true [c]) rest
      else next true (.text true ['\\', c]) rest
    | false, '\\' :: c :: rest =>
      if c = '\n' then readWord fuel false rest else next false (.text true [c]) rest
    | quoted, '$' :: rest =>
      match dollar? quoted rest with
      | some (p, rest) => next quoted p rest
      | none =>
        if rest.head? = some '(' then .error (.unexpected "end of file" (some "\")\""))
        else if rest.head? = some '{' then
          .error (if rest.contains '}' then .badSubstitution else .unterminatedBraces)
        else next quoted (.text quoted ['$']) rest
    | quoted, '\x60' :: rest =>
      match backquoted? rest with
      | some (text, rest) => next quoted (.output quoted text) rest
      | none => .error .unterminatedBackquotes
    | quoted, c :: rest =>
      if !quoted && endsWord c then .ok ([], cs) else next quoted (.text quoted [c]) rest

def pairs : List (List Char) := [[';', ';'], ['&', '&'], ['|', '|']]

/-- The sign of a redirection, and what follows it. -/
def redirection? : List Char → Option (String × List Char)
  | '>' :: '>' :: rest => some (">", rest)
  | '>' :: '&' :: rest => some ("&", rest)
  | '<' :: '&' :: rest => some ("&", rest)
  | '>' :: '|' :: rest => some (">", rest)
  | '>' :: rest => some (">", rest)
  | '<' :: rest => some ("<", rest)
  | _ => none

/-- Cuts a script into tokens, as far as that can be done. -/
def tokens : Nat → List Char → List Token × Option SyntaxError
  | 0, _ | _, [] => ([], none)
  | fuel + 1, c :: rest =>
    let cs := c :: rest
    let next (t : Token) (rest : List Char) : List Token × Option SyntaxError :=
      let (ts, e) := tokens fuel rest
      (t :: ts, e)
    if c = ' ' || c = '\t' then tokens fuel rest
    else if c = '#' then tokens fuel (rest.dropWhile (· != '\n'))
    else if cs.take 2 = ['\\', '\n'] then tokens fuel (cs.drop 2)
    else if pairs.contains (cs.take 2) then next (.operator (String.ofList (cs.take 2))) (cs.drop 2)
    else if [';', '&', '|', '(', ')', '\n'].contains c then next (.operator c.toString) rest
    else match redirection? cs, c.isDigit, redirection? rest with
      | some (sign, rest), _, _ => next (.redirect (if c = '<' then 0 else 1) sign) rest
      | none, true, some (sign, rest) => next (.redirect (c.toNat - '0'.toNat) sign) rest
      | none, _, _ =>
        match readWord (2 * cs.length + 1) false cs with
        | .ok (w, rest) => next (.word w) rest
        | .error e => ([], some e)

/-! ## Grammar -/

/-- The text of a token that is a plain word. -/
def keyword? : List Token → Option String
  | .word w :: _ => (Word.plain? w).map String.ofList
  | _ => none

/-- The words with a meaning of their own. -/
def keywords : List String :=
  ["!", "case", "do", "done", "elif", "else", "esac", "fi", "for", "if", "in", "then", "until",
    "while", "\x7b", "\x7d"]

/-- The name of what comes next. -/
def nameOfNext : List Token → String
  | [] => "end of file"
  | .redirect .. :: _ => "redirection"
  | .operator text :: _ => if text = "\n" then "newline" else s!"\"{text}\""
  | .word w :: _ =>
    match (Word.plain? w).map String.ofList with
    | some text => if keywords.contains text then s!"\"{text}\"" else "word"
    | none => "word"

def refuse {α : Type} (expected : Option String) (ts : List Token) : Except SyntaxError α :=
  .error (.unexpected (nameOfNext ts) expected)

def skipLines : List Token → List Token
  | .operator "\n" :: rest => skipLines rest
  | ts => ts

/-- Takes a word that has to come next. -/
def expect (word : String) (ts : List Token) : Except SyntaxError (List Token) :=
  if keyword? (skipLines ts) = some word then .ok (skipLines ts).tail
  else refuse (some s!"\"{word}\"") (skipLines ts)

def takeOperator (text : String) : List Token → Option (List Token)
  | .operator other :: rest => if other = text then some rest else none
  | _ => none

/-- The words that end a list of commands. -/
def closers : List String := ["then", "do", "done", "fi", "else", "elif", "esac", "\x7d"]

def atClose (ts : List Token) : Bool :=
  match ts with
  | [] | .operator ")" :: _ | .operator ";;" :: _ => true
  | ts => (keyword? ts).any closers.contains

structure Simple where
  assignments : List (String × Word) := []
  words : List Word := []
  redirects : List Redirect := []

/-- A redirection to what a word names. -/
def redirectTo (descriptor : Nat) (sign : String) (w : Word) : Option Redirect :=
  if sign = "&" then
    match Word.plain? w with
    | some ['-'] => some (.close descriptor)
    | some [c] => if c.isDigit then some (.duplicate descriptor (c.toNat - '0'.toNat)) else none
    | _ => none
  else some (.file (sign == "<") descriptor w)

def readSimple : Simple → List Token → Except SyntaxError (Simple × List Token)
  | s, .redirect descriptor sign :: .word w :: rest =>
    match redirectTo descriptor sign w with
    | some r => readSimple { s with redirects := s.redirects ++ [r] } rest
    | none => .error (.unexpected "word" none)
  | _, .redirect _ _ :: rest => refuse none rest
  | s, .word w :: rest =>
    match if s.words.isEmpty then Word.assignment? w else none with
    | some a => readSimple { s with assignments := s.assignments ++ [a] } rest
    | none => readSimple { s with words := s.words ++ [w] } rest
  | s, ts => .ok (s, ts)

def readRedirects : List Redirect → List Token → Except SyntaxError (List Redirect × List Token)
  | rs, .redirect descriptor sign :: .word w :: rest =>
    match redirectTo descriptor sign w with
    | some r => readRedirects (rs ++ [r]) rest
    | none => .error (.unexpected "word" none)
  | _, .redirect _ _ :: rest => refuse none rest
  | rs, ts => .ok (rs, ts)

/-- Reads the words up to the end of a line. -/
def readWords : List Token → List Word × List Token
  | .word w :: rest => (w :: (readWords rest).1, (readWords rest).2)
  | .operator ";" :: rest => ([], rest)
  | ts => ([], ts)

/-- Reads patterns with bars between them, up to a parenthesis. -/
def readPatterns : List Token → Except SyntaxError (List Word × List Token)
  | .word w :: .operator ")" :: rest => .ok ([w], rest)
  | .word w :: .operator "|" :: rest => do
    let (ws, rest) ← readPatterns rest
    return (w :: ws, rest)
  | .word _ :: rest => refuse (some "\")\"") rest
  | ts => refuse none ts

/-- What a reader gives: a script, and the tokens behind it. -/
abbrev Reading := Except SyntaxError (Script × List Token)

mutual

/-- Reads commands up to what ends them; a line break separates them, or is left. -/
def readList : Nat → Bool → List Token → Reading
  | 0, _, ts => refuse none ts
  | fuel + 1, lines, ts =>
    let ts := if lines then skipLines ts else ts
    if atClose ts || ts.head? = some (.operator "\n") then .ok (.skip, ts)
    else do
      let (first, ts) ← readPipeline fuel ts
      let (first, ts) ← readChain fuel first ts
      match ts with
      | .operator "&" :: ts =>
        let (second, ts) ← readList fuel lines ts
        return ((Script.background first).followedBy second, ts)
      | .operator ";" :: ts =>
        let (second, ts) ← readList fuel lines ts
        return (first.followedBy second, ts)
      | .operator "\n" :: rest =>
        if lines then
          let (second, ts) ← readList fuel lines rest
          return (first.followedBy second, ts)
        else return (first, ts)
      | ts => if atClose ts then return (first, ts) else refuse none ts

/-- Reads the commands that depend on the success of what comes before them. -/
def readChain : Nat → Script → List Token → Reading
  | 0, _, ts => refuse none ts
  | fuel + 1, first, ts =>
    match ts with
    | .operator "&&" :: ts => do
      let (second, ts) ← readPipeline fuel (skipLines ts)
      readChain fuel (.onlyIf true first second) ts
    | .operator "||" :: ts => do
      let (second, ts) ← readPipeline fuel (skipLines ts)
      readChain fuel (.onlyIf false first second) ts
    | ts => .ok (first, ts)

def readPipeline : Nat → List Token → Reading
  | 0, ts => refuse none ts
  | fuel + 1, ts =>
    if keyword? ts = some "!" then do
      if keyword? ts.tail = some "!" then refuse none ts.tail
      let (body, ts) ← readPipeline fuel ts.tail
      return (.negate body, ts)
    else do
      let (first, ts) ← readCommand fuel ts
      match ts with
      | .operator "|" :: ts =>
        let (rest, ts) ← readPipeline fuel (skipLines ts)
        return (.pipeline first rest, ts)
      | ts => return (first, ts)

/-- Reads commands of which there has to be one. At the end of a script something else is missing,
too. -/
def readSome : Nat → List Token → Reading
  | 0, ts => refuse none ts
  | fuel + 1, ts =>
    let ts := skipLines ts
    if atClose ts && !ts.isEmpty then refuse none ts else readList fuel true ts

def readBranch : Nat → List Token → Reading
  | 0, ts => refuse none ts
  | fuel + 1, ts => do
    let (test, ts) ← readSome fuel ts
    let (yes, ts) ← readSome fuel (← expect "then" ts)
    match keyword? ts with
    | some "elif" =>
      let (no, ts) ← readBranch fuel ts.tail
      return (.branch test yes no, ts)
    | some "else" =>
      let (no, ts) ← readSome fuel ts.tail
      return (.branch test yes no, ← expect "fi" ts)
    | _ => return (.branch test yes .skip, ← expect "fi" ts)

def readCases : Nat → List Token → Except SyntaxError (List (List Word × Script) × List Token)
  | 0, ts => refuse none ts
  | fuel + 1, ts =>
    let ts := skipLines ts
    if keyword? ts = some "esac" then .ok ([], ts.tail)
    else do
      let (patterns, ts) ← readPatterns ((takeOperator "(" ts).getD ts)
      let (body, ts) ← readList fuel true ts
      match takeOperator ";;" ts with
      | some ts =>
        let (others, ts) ← readCases fuel ts
        return ((patterns, body) :: others, ts)
      | none => return ([(patterns, body)], ← (expect "esac" ts).mapError fun _ =>
          .unexpected (nameOfNext ts) (some "\";;\""))

def readBody : Nat → List Token → Reading
  | 0, ts => refuse none ts
  | fuel + 1, ts => do
    let (body, ts) ← readSome fuel (← expect "do" ts)
    return (body, ← expect "done" ts)

def readCommand : Nat → List Token → Reading
  | 0, ts => refuse none ts
  | fuel + 1, ts =>
    let grouped (r : Reading) : Reading := do
      let (body, ts) ← r
      let (redirects, ts) ← readRedirects [] ts
      return (if redirects.isEmpty then body else .group body redirects, ts)
    match ts, keyword? ts with
    | .operator "(" :: ts, _ => do
      let (body, ts) ← readSome fuel ts
      match takeOperator ")" ts with
      | none => refuse (some "\")\"") ts
      | some ts =>
        let (redirects, ts) ← readRedirects [] ts
        return (.apart body redirects, ts)
    | _ :: ts, some "\x7b" => grouped do
      let (body, ts) ← readSome fuel ts
      return (body, ← expect "\x7d" ts)
    | _ :: ts, some "if" => grouped (readBranch fuel ts)
    | _ :: ts, some "while" => grouped do
      let (test, ts) ← readSome fuel ts
      let (body, ts) ← readBody fuel ts
      return (.loop true test body, ts)
    | _ :: ts, some "until" => grouped do
      let (test, ts) ← readSome fuel ts
      let (body, ts) ← readBody fuel ts
      return (.loop false test body, ts)
    | _ :: .word w :: ts, some "for" => grouped do
      let name := ((Word.plain? w).map String.ofList).getD ""
      if keywords.contains name || !name.toList.all isNameChar then throw .badLoop
      let (words, ts) := match expect "in" ts with
        | .ok ts => readWords ts
        | .error _ => ([[.parameter true "@"]], (takeOperator ";" ts).getD ts)
      let (body, ts) ← readBody fuel ts
      return (.each name words body, ts)
    | _, some "for" => .error .badLoop
    | _ :: .word w :: ts, some "case" => grouped do
      let (cases, ts) ← readCases fuel (← expect "in" ts)
      return (.choose w cases, ts)
    | .word w :: .operator "(" :: ts, _ => do
      match takeOperator ")" ts, Word.plain? w with
      | none, _ =>
        .error (.unexpected (match ts with
          | .word _ :: _ => "word"
          | ts => nameOfNext ts) (some "\")\""))
      | some _, none => .error .badName
      | some ts, some name =>
        let (body, ts) ← readCommand fuel (skipLines ts)
        return (.define (String.ofList name) body, ts)
    | ts, _ =>
      if (keyword? ts).any closers.contains then refuse none ts
      else do
        let (s, ts) ← readSimple {} ts
        if s.words.isEmpty && s.assignments.isEmpty && s.redirects.isEmpty then refuse none ts
        else return (.simple s.assignments s.words s.redirects, ts)

end

/-- Reads line after line; an error in cutting the text stands at its end. -/
def readLines (e : Option SyntaxError) : Nat → List Token → Script
  | 0, _ => .skip
  | fuel + 1, ts =>
    match skipLines ts, e with
    | [], none => .skip
    | [], some e => .malformed e.message
    | t :: ts, e =>
      match readList (5 * ts.length + 8) false (t :: ts) with
      | .error found =>
        -- A text that could not be cut ends before the error shows.
        .malformed (match found, e with
          | .unexpected "end of file" _, some e => e.message
          | found, _ => found.message)
      | .ok (script, []) =>
        match e with
        | some e => .malformed e.message
        | none => script
      | .ok (script, .operator "\n" :: rest) => script.followedBy (readLines e fuel rest)
      | .ok (_, rest) => .malformed (SyntaxError.unexpected (nameOfNext rest) none).message

def Script.parse (text : String) : Script :=
  let (ts, e) := tokens (text.length + 1) text.toList
  readLines e (ts.length + 1) ts

end Observatory.Rehearsal.Shell
