import Observatory.Text.Escaped
import Observatory.Token
/-!
# Messages

A log line that travels between peers: when and where it was written, how severe it is, and
its text.
-/

namespace Observatory

/-- How severe a message is. -/
inductive Severity where
  | error
  | warning
  | info
  | debug
  deriving Repr, DecidableEq

namespace Severity

def bits : Severity → UInt32
  | error => 1
  | warning => 2
  | info => 4
  | debug => 8

/-- The severity of a set of bits. An error outranks a warning and a warning debug output; without
any of the three it is information. -/
def ofBits (b : UInt32) : Severity :=
  if b &&& 1 ≠ 0 then error
  else if b &&& 2 ≠ 0 then warning
  else if b &&& 8 ≠ 0 then debug
  else info

theorem ofBits_bits (s : Severity) : ofBits s.bits = s := by
  cases s <;> decide

end Severity

/-- A log line with its time, in seconds and microseconds, its origin and its severity. -/
structure Message where
  sec : Int64
  usec : UInt32
  origin : String
  severity : Severity
  text : String
  deriving DecidableEq

namespace Message

def encode (m : Message) : List Char :=
  Number.intText m.sec.toInt ++ ' ' :: (Number.natText m.usec.toNat ++
    ' ' :: (Text.Quoted.encodeIfNeeded m.origin.toList ++
    ' ' :: (Number.natText m.severity.bits.toNat ++
    ' ' :: Text.Escaped.encode m.text.toList)))

/-- Reads the parameters of a message record. The text keeps its own spacing. -/
def parse (rest : List Char) : Except ParseError Message := do
  let (sec, rest) ← Token.nextAs Token.toInt64 rest
  let (usec, rest) ← Token.nextAs Token.toUInt32 rest
  let (origin, rest) ← Token.nextString rest
  let (bits, rest) ← Token.nextAs Token.toUInt32 rest
  return ⟨sec, usec, origin, Severity.ofBits bits,
    String.ofList (Text.Escaped.decode (Token.tail rest))⟩

end Message

end Observatory
