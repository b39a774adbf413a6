import Observatory.Number.Double
/-!
# What can be wrong with a record

The causes for which a record, or the text of a value, is refused. The record is dropped and the
connection survives, unless too many follow one another.
-/

namespace Observatory

/-- Why a record or the text of a value is malformed. -/
inductive ParseError where
  /-- There is no token at all. -/
  | emptyRecord
  | missingParameter
  /-- Text is left behind the last parameter. -/
  | trailingParameter (text : String)
  | unterminatedQuote
  | invalidInteger (token : String)
  | invalidNumber (token : String)
  | invalidBool (token : String)
  | invalidCoordinate (token : String)
  /-- A selection has no such entry. -/
  | unknownSymbol (token : String)
  /-- No kind of value has this type word. -/
  | unknownType (code : UInt32)
  | invalidOperator (token : String)
  /-- A bounded double would leave its range. -/
  | outOfRange (value min max : Float)
  /-- A line is longer than the limit, in bytes. -/
  | tooLong (limit : Nat)
  | invalidUtf8
  deriving Repr

/-- The text of a double in a message. -/
def plainText (x : Float) : String := String.ofList (Number.plainDouble x)

namespace ParseError

def message : ParseError → String
  | emptyRecord => "empty record"
  | missingParameter => "missing parameter"
  | trailingParameter text => s!"unexpected trailing parameter '{text}'"
  | unterminatedQuote => "unterminated quoted string"
  | invalidInteger token => s!"invalid integer '{token}'"
  | invalidNumber token => s!"invalid number '{token}'"
  | invalidBool token => s!"invalid boolean '{token}'"
  | invalidCoordinate token => s!"invalid coordinate '{token}'"
  | unknownSymbol token => s!"unknown selection entry '{token}'"
  | unknownType code =>
    "unknown value type " ++ String.ofList (Number.hexText 1 code.toNat)
  | invalidOperator token => s!"unknown operator '{token}'"
  | outOfRange value min max =>
    plainText value ++ " outside [" ++ plainText min ++ ", " ++ plainText max ++ "]"
  | tooLong limit => s!"record longer than {limit} bytes"
  | invalidUtf8 => "record is not valid UTF-8"

end ParseError

end Observatory
