import Observatory.Number.Integer
import Observatory.Text.Hidden
/-!
# Literals

A string as a program text would write it: between double quotes, with the common escapes, and
with every character that does not show named by its code point in braces.
-/

namespace Observatory.Text.Literal

/-- The escape that names a code point. -/
def codePoint (c : Char) : List Char :=
  '\\' :: 'u' :: '\x7b' :: (Nat.toDigits 16 c.toNat ++ ['\x7d'])

/-- One character inside a literal. -/
def encodeChar : Char → List Char
  | '\x00' => ['\\', '0']
  | '\t' => ['\\', 't']
  | '\r' => ['\\', 'r']
  | '\n' => ['\\', 'n']
  | '\\' => ['\\', '\\']
  | '"' => ['\\', '"']
  | c => if isHidden c then codePoint c else [c]

def encode (s : List Char) : List Char := '"' :: (s.flatMap encodeChar ++ ['"'])

/-- The literal of a string. -/
def quote (s : String) : String := String.ofList (encode s.toList)

def quote? : Option String → String
  | some s => "Some(" ++ quote s ++ ")"
  | none => "None"

def quoteList (ss : List String) : String := "[" ++ ", ".intercalate (ss.map quote) ++ "]"

/-- A record of named fields, each with the text of its value. The brackets are braces. -/
def fields (name : String) (items : List (String × String)) (more : Bool) : String :=
  let shown := items.map fun (key, text) => key ++ ": " ++ text
  name ++ " \x7b " ++ ", ".intercalate (shown ++ if more then [".."] else []) ++ " \x7d"

end Observatory.Text.Literal
