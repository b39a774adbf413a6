import Observatory.Rehearsal.Shell.Sum
/-!
# Scripts

What a rehearsed child does is written down in the language of command shells: words with
parameters in them, simple commands, and the usual ways to put commands together.
-/

namespace Observatory.Rehearsal.Shell

export Sum (isNameChar)

/-! ## Words -/

/-- A part of a word. What is quoted keeps its blanks and has no special characters. -/
inductive Piece where
  | text (quoted : Bool) (cs : List Char)
  | parameter (quoted : Bool) (name : String)
  /-- A parameter that is changed as a sign and a text say. -/
  | altered (quoted : Bool) (name sign : String) (text : List Char)
  | sum (quoted : Bool) (s : Sum)
  /-- What a script prints. -/
  | output (quoted : Bool) (script : List Char)
  /-- What a script printed. -/
  | printed (quoted : Bool) (text : String)
  deriving DecidableEq

def Piece.isQuoted : Piece → Bool
  | .text quoted _ | .parameter quoted _ | .altered quoted _ _ _ | .sum quoted _
  | .output quoted _ | .printed quoted _ => quoted

abbrev Word := List Piece

namespace Word

/-- The text of a word without quotes and parameters. -/
def plain? : Word → Option (List Char)
  | [] => some []
  | .text false cs :: rest => (plain? rest).map (cs ++ ·)
  | _ => none

/-- Splits a word at an equality sign behind a name. -/
def assignmentFrom : List Char → Word → Option (String × Word)
  | name, .text false ['='] :: value =>
    if name.isEmpty then none else some (String.ofList name, value)
  | name, .text false [c] :: rest =>
    if isNameChar c && !(name.isEmpty && c.isDigit) then assignmentFrom (name ++ [c]) rest else none
  | _, _ => none

def assignment? (w : Word) : Option (String × Word) := assignmentFrom [] w

end Word

/-! ## Patterns -/

inductive Glyph where
  | exact (c : Char)
  /-- Any one character. -/
  | one
  /-- Any characters, or none. -/
  | many
  /-- One character inside of the ranges, or outside of them. -/
  | range (inside : Bool) (ranges : List (Char × Char))

def inRanges (ranges : List (Char × Char)) (c : Char) : Bool :=
  ranges.any fun (low, high) => low ≤ c && c ≤ high

def fits : List Glyph → List Char → Bool
  | [], cs => cs.isEmpty
  | .exact c :: p, d :: cs => c == d && fits p cs
  | .one :: p, _ :: cs => fits p cs
  | .range inside ranges :: p, c :: cs => inRanges ranges c == inside && fits p cs
  | .many :: p, [] => fits p []
  | .many :: p, c :: cs => fits p (c :: cs) || fits (.many :: p) cs
  | _, [] => false
termination_by p cs => p.length + cs.length

/-- The ranges between brackets, the closing one left out. -/
def rangesOf : List Char → List (Char × Char)
  | low :: '-' :: high :: rest => (low, high) :: rangesOf rest
  | c :: rest => (c, c) :: rangesOf rest
  | [] => []

/-- What the characters of a pattern mean; the quoted ones stand for themselves. At most so many
are read. -/
def glyphs : Nat → List (Bool × Char) → List Glyph
  | 0, _ | _, [] => []
  | fuel + 1, (quoted, c) :: rest =>
    let (inner, behind) := rest.span fun p => p != (false, ']')
    if !quoted && c = '[' && !inner.isEmpty && !behind.isEmpty then
      let cs := inner.map Prod.snd
      let negated := cs.head? = some '!'
      .range (!negated) (rangesOf (if negated then cs.tail else cs)) :: glyphs fuel behind.tail
    else
      let glyph := match quoted, c with
        | false, '*' => .many
        | false, '?' => .one
        | _, c => .exact c
      glyph :: glyphs fuel rest

/-! ## Commands -/

inductive Redirect where
  | duplicate (descriptor source : Nat)
  | close (descriptor : Nat)
  | file (reads : Bool) (descriptor : Nat) (path : Word)

/-- What a shell can be told to do. -/
inductive Script where
  | skip
  | simple (assignments : List (String × Word)) (words : List Word) (redirects : List Redirect)
  | seq (first second : Script)
  /-- The second one runs if the first one succeeds, or if it fails. -/
  | onlyIf (success : Bool) (first second : Script)
  | negate (body : Script)
  /-- Each one reads what the one before it writes. -/
  | pipeline (first rest : Script)
  /-- Nobody waits for its end. -/
  | background (body : Script)
  | group (body : Script) (redirects : List Redirect)
  /-- Runs in a process of its own. -/
  | apart (body : Script) (redirects : List Redirect)
  | branch (test yes no : Script)
  /-- Runs as long as the test succeeds, or as long as it fails. -/
  | loop (success : Bool) (test body : Script)
  | each (name : String) (words : List Word) (body : Script)
  | choose (word : Word) (cases : List (List Word × Script))
  | define (name : String) (body : Script)
  /-- What is no script. -/
  | malformed (complaint : String)

/-! ## Printing inside of words -/

namespace Word

/-- The script whose printing stands first in a word. -/
def output? (w : Word) : Option (List Char) :=
  w.findSome? fun
    | .output _ script => some script
    | _ => none

/-- Puts what was printed in the place of the first script. -/
def printing (text : String) : Word → Word
  | [] => []
  | .output quoted _ :: rest => .printed quoted text :: rest
  | p :: rest => p :: printing text rest

end Word

/-- Changes the first word with a script in it. -/
def printFirst (text : String) : List Word → List Word
  | [] => []
  | w :: rest => if w.output?.isSome then w.printing text :: rest else w :: printFirst text rest

namespace Script

/-- The script that has to print something before a command can run. -/
def output? : Script → Option (List Char)
  | .simple assignments words _ => (words ++ assignments.map Prod.snd).findSome? Word.output?
  | .each _ words _ => words.findSome? Word.output?
  | .choose word _ => word.output?
  | _ => none

/-- Puts what was printed in the place of the first script. -/
def printing (text : String) : Script → Script
  | .simple assignments words redirects =>
    if words.any fun w => w.output?.isSome then
      .simple assignments (printFirst text words) redirects
    else .simple ((assignments.map Prod.fst).zip (printFirst text (assignments.map Prod.snd))) words
      redirects
  | .each name words body => .each name (printFirst text words) body
  | .choose word cases => .choose (word.printing text) cases
  | script => script

end Script

/-- One script and then another one. Where nothing follows, the status stays as it is. -/
def Script.followedBy (first : Script) : Script → Script
  | .skip => first
  | second => .seq first second

end Observatory.Rehearsal.Shell
