import Observatory.Number.Decimal
import Observatory.Rehearsal.Shell.State
/-!
# What words become

A word becomes arguments: its parameters are replaced by their values, and what is not quoted is
split where separators stand. Where one text is needed, it is not split.
-/

namespace Observatory.Rehearsal.Shell

/-! ## Parameters -/

def numeral (n : Nat) : String := String.ofList (Number.natText n)

/-- The value of a parameter, if it has one. -/
def parameter? (name : String) (s : Shell) : Option String :=
  match name with
  | "?" => some (numeral s.status)
  | "$" => some (numeral s.pid)
  | "#" => some (numeral s.args.length)
  | "!" => s.jobs.head?.map fun j => numeral j.1
  | "@" | "*" => if s.args.isEmpty then none else some (" ".intercalate s.args)
  | "0" => some s.name
  | name =>
    match Number.readNat name.toList with
    | some n => s.args[n - 1]?
    | none => s.bindings.lookup name

def parameter (name : String) (s : Shell) : String := (s.parameter? name).getD ""

def separators (s : Shell) : List Char := ((s.bindings.lookup "IFS").getD " \t\n").toList

/-- Whether a separator is a blank one: those around words do not count. -/
def isBlankSeparator (separators : List Char) (c : Char) : Bool :=
  separators.contains c && [' ', '\t', '\n'].contains c

/-! ## Changed parameters -/

/-- Takes the shortest end, or the longest one, that fits a pattern away. -/
def withoutEnd (longest : Bool) (p : List Glyph) (cs : List Char) : List Char :=
  let cuts := List.range (cs.length + 1)
  let cuts := if longest then cuts else cuts.reverse
  match cuts.find? fun n => fits p (cs.drop n) with
  | some n => cs.take n
  | none => cs

/-- Takes the shortest start, or the longest one, that fits a pattern away. -/
def withoutStart (longest : Bool) (p : List Glyph) (cs : List Char) : List Char :=
  let cuts := List.range (cs.length + 1)
  let cuts := if longest then cuts.reverse else cuts
  match cuts.find? fun n => fits p (cs.take n) with
  | some n => cs.drop n
  | none => cs

/-- The value of a parameter changed by a sign and a text. A colon in front of the sign makes an
empty parameter one without a value; no sign asks for the length. -/
def altered (name sign : String) (text : List Char) (s : Shell) : String :=
  let value := s.parameter name
  let hasValue := match s.parameter? name with
    | some value => !(sign.startsWith ":" && value.isEmpty)
    | none => false
  let p := glyphs text.length (text.map (false, ·))
  match sign with
  | "" => numeral value.length
  | "-" | ":-" | "=" | ":=" => if hasValue then value else String.ofList text
  | "+" | ":+" => if hasValue then String.ofList text else ""
  | "%" => String.ofList (withoutEnd false p value.toList)
  | "%%" => String.ofList (withoutEnd true p value.toList)
  | "#" => String.ofList (withoutStart false p value.toList)
  | "##" => String.ofList (withoutStart true p value.toList)
  | _ => value

/-- Gives variables without a value the one that a word has for them. -/
def assignDefaults (w : Word) (s : Shell) : Shell :=
  w.foldl (fun s p => match p with
    | .altered _ name sign text =>
      if sign = "=" || sign = ":=" then s.assign name (s.altered name sign text) else s
    | _ => s) s

/-! ## Arguments -/

def text (s : Shell) : Piece → String
  | .text _ cs => String.ofList cs
  | .parameter _ "*" => (String.ofList (s.separators.take 1)).intercalate s.args
  | .parameter _ name => s.parameter name
  | .altered _ name sign text => s.altered name sign text
  | .sum _ e =>
    match e.value fun name => (Number.readInt (s.parameter name).toList).getD 0 with
    | some n => String.ofList (Number.intText n)
    | none => ""
  | .output .. => ""
  | .printed _ text => text

/-- The arguments that a word becomes: those that are done, and the one that is not. -/
structure Fields where
  done : List String := []
  current : Option String := none
  /-- The last argument was ended by a blank: another separator adds nothing. -/
  soft : Bool := false

namespace Fields

/-- Adds to the argument that is not done. -/
def add (text : String) (f : Fields) : Fields :=
  { f with current := some (f.current.getD "" ++ text), soft := false }

def flush (f : Fields) : Fields := { f with done := f.done ++ f.current.toList, current := none }

/-- Adds several arguments; the first one goes on with the one that is not done. -/
def addAll : List String → Fields → Fields
  | [], f => f
  | [text], f => f.add text
  | text :: rest, f => addAll rest (f.add text).flush

/-- Adds a character that may be a separator. -/
def addChar (separators : List Char) (f : Fields) (c : Char) : Fields :=
  if isBlankSeparator separators c then
    if f.current.isSome then { f.flush with soft := true } else f
  else if separators.contains c then
    if f.current.isSome then { f.flush with soft := false }
    else if f.soft then { f with soft := false }
    else { f with done := f.done ++ [""] }
  else f.add c.toString

end Fields

def addPiece (s : Shell) (f : Fields) : Piece → Fields
  | .text _ cs => f.add (String.ofList cs)
  | .parameter true "@" => f.addAll s.args
  | .parameter false "*" | .parameter false "@" =>
    f.addAll (s.args.flatMap fun arg =>
      (arg.toList.foldl (Fields.addChar s.separators) {}).flush.done)
  | p =>
    if p.isQuoted then f.add (s.text p)
    else (s.text p).toList.foldl (Fields.addChar s.separators) f

/-- The arguments that a word becomes. Quotes around no arguments at all are no argument. -/
def expand (s : Shell) (w : Word) : List String :=
  let none := s.args.isEmpty && w.contains (.parameter true "@")
  let w := if none then w.filter (· != .text true []) else w
  (w.foldl (addPiece s) {}).flush.done

/-- The text that a word becomes where it is not split. -/
def expandWhole (s : Shell) (w : Word) : String := String.join (w.map s.text)

def pattern (s : Shell) (w : Word) : List Glyph :=
  let cs := w.flatMap fun p => (s.text p).toList.map (p.isQuoted, ·)
  glyphs cs.length cs

/-! ## Lines -/

/-- Assigns the words of a line to variables; the last one takes the rest. -/
def assignLine : List String → List Char → Shell → Shell
  | [], _, s => s
  | [name], cs, s =>
    let isBlank := isBlankSeparator s.separators
    s.assign name (String.ofList (((cs.dropWhile isBlank).reverse.dropWhile isBlank).reverse))
  | name :: names, cs, s =>
    let isBlank := isBlankSeparator s.separators
    let (word, rest) := (cs.dropWhile isBlank).span fun c => !s.separators.contains c
    let rest := rest.dropWhile isBlank
    let rest := if rest.head?.any s.separators.contains then rest.tail else rest
    assignLine names rest (s.assign name (String.ofList word))

/-! ## Redirections -/

/-- What a descriptor is made to lead to by a path, or why that cannot be done. -/
def targetOf (reads : Bool) (files : Files) (path : String) : Except String (Option Target) :=
  let refused (reason : String) : Except String (Option Target) :=
    .error (if reads then s!"cannot open {path}: {reason}" else s!"cannot create {path}: {reason}")
  match path with
  | "/dev/stdin" => .ok (files.lookup 0)
  | "/dev/stdout" => .ok (files.lookup 1)
  | "/dev/stderr" => .ok (files.lookup 2)
  | path =>
    match placeOf path, reads with
    | .directory, false => refused "Is a directory"
    | .missing, true | .beyondFile, true => refused "No such file"
    | .missing, false =>
      let folder := "/".intercalate (path.splitOn "/").dropLast
      if folder = "" || directories.contains folder then .ok (some .null)
      else refused "Directory nonexistent"
    | _, _ => .ok (some .null)

def redirect (s : Shell) (files : Files) : Redirect → Except String Files
  | .close descriptor => .ok (files.close descriptor)
  | .duplicate descriptor source =>
    match files.lookup source with
    | some target => .ok (files.lead descriptor target)
    | none => .error s!"{source}: Bad file descriptor"
  | .file reads descriptor path => do
    match ← targetOf reads files (s.expandWhole path) with
    | some target => return files.lead descriptor target
    | none => return files.close descriptor

/-- The descriptors under redirections, or why there are none. -/
def redirected (redirects : List Redirect) (s : Shell) : Except String Files :=
  redirects.foldlM (redirect s) s.files

/-- Runs frames under redirections. -/
def under (redirects : List Redirect) (frames : List Frame) (s : Shell) : Demand :=
  if redirects.isEmpty then .proceed (s.push frames)
  else match s.redirected redirects with
    | .ok files => .proceed { s.push (frames ++ [.restore s.files]) with files }
    | .error reason => s.complain 2 reason

end Observatory.Rehearsal.Shell
