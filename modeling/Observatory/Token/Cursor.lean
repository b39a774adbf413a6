import Observatory.Token
/-!
# A cursor over the parameters of a record

Reads one parameter after another and remembers where it stands. A token that could be read is
passed even when it is not what was expected; without a token the cursor stays.
-/

namespace Observatory

/-- The part of a record that has not been read yet. -/
structure Cursor where
  rest : List Char

namespace Cursor

variable {α : Type}

/-- Stands in front of the first token. -/
def ofString (text : String) : Cursor := ⟨text.toList⟩

def atEnd (c : Cursor) : Bool := Token.atEnd c.rest

/-- Reads the next token by `convert`. -/
def next (convert : List Char → Except ParseError α) (c : Cursor) : Except ParseError α × Cursor :=
  ((Token.nextAs convert c.rest).map Prod.fst, ⟨Token.skip c.rest⟩)

def string (c : Cursor) : Except ParseError String × Cursor :=
  c.next fun token => .ok (String.ofList token)

/-- Reads free text up to the end of the line. -/
def text (c : Cursor) : Except ParseError String × Cursor :=
  ((Token.text c.rest).map String.ofList,
    match Text.skipBlank c.rest with
    | '"' :: _ => ⟨Token.skip c.rest⟩
    | _ => ⟨[]⟩)

def remainder (c : Cursor) : String × Cursor := (String.ofList (Token.remainder c.rest), ⟨[]⟩)

/-- Takes everything left behind one separator. -/
def tail (c : Cursor) : String × Cursor := (String.ofList (Token.tail c.rest), ⟨[]⟩)

def finish (c : Cursor) : Except ParseError Unit := Token.finish c.rest

end Cursor

end Observatory
