import Observatory.Record.Message
import Observatory.Value.Operator
/-!
# Records

One line of the protocol between daemons, clients and helper processes. The first token says
which kind of record it is; a token that is a sign and digits is the code of a reply, and a word
that names no kind is the opcode of a command.
-/

namespace Observatory

/-- One line of the protocol. -/
inductive Record where
  /-- A peer pushes the text of one of its values. -/
  | value (name text : String)
  /-- A peer asks for a change of one of our values. -/
  | set (name : String) (op : Operator) (text : String)
  /-- Announces a value: its type word, name and description. -/
  | metaInfo (code : UInt32) (name description : String)
  /-- Announces the next symbol of a selection. -/
  | symbolInfo (name symbol : String)
  /-- The status word of the peer's device. -/
  | status (bits : UInt32)
  /-- The word of operations that block one another. -/
  | blocking (bits : UInt32)
  | message (m : Message)
  /-- Talk about the link itself, such as keepalives. -/
  | technical (text : String)
  /-- The answer to a request. -/
  | reply (code : Int32) (reason : String)
  | command (opcode params : String)
  deriving DecidableEq

namespace Record

/-- A sign and at least one digit, all of them ASCII. -/
def isReplyCode : List Char → Bool
  | '+' :: cs => !cs.isEmpty && cs.all Char.isDigit
  | '-' :: cs => !cs.isEmpty && cs.all Char.isDigit
  | _ => false

/-! ## Reading -/

/-- Reads the parameters behind the opcode. -/
def parseBody (opcode : List Char) (rest : List Char) : Except ParseError Record :=
  if isReplyCode opcode then do
    let code ← Token.toInt32 opcode
    let reason ← Token.text rest
    return .reply code (String.ofList reason)
  else match String.ofList opcode with
  | "V" => do
    let (name, rest) ← Token.nextString rest
    return .value name (String.ofList (Token.remainder rest))
  | "X" => do
    let (name, rest) ← Token.nextString rest
    let (op, rest) ← Token.nextAs Operator.parse rest
    let text := Token.remainder rest
    if text.isEmpty then throw .missingParameter
    return .set name op (String.ofList text)
  | "METAINFO" => do
    let (code, rest) ← Token.nextAs Token.toUInt32 rest
    let (name, rest) ← Token.nextString rest
    let (description, rest) ← Token.nextString rest
    Token.finish rest
    return .metaInfo code name description
  | "SELMETAINFO" => do
    let (name, rest) ← Token.nextString rest
    let (symbol, rest) ← Token.nextString rest
    Token.finish rest
    return .symbolInfo name symbol
  | "S" => do
    let (bits, rest) ← Token.nextAs Token.toUInt32 rest
    Token.finish rest
    return .status bits
  | "B" => do
    let (bits, rest) ← Token.nextAs Token.toUInt32 rest
    Token.finish rest
    return .blocking bits
  | "MESSAGE" => do
    return .message (← Message.parse rest)
  | "T" => return .technical (String.ofList (Token.remainder rest))
  | word => return .command word (String.ofList (Token.remainder rest))

/-- Reads one line. -/
def parseChars (line : List Char) : Except ParseError Record :=
  if Token.atEnd line then .error .emptyRecord
  else do
    let (opcode, rest) ← Token.next line
    parseBody opcode rest

def parse (line : String) : Except ParseError Record := parseChars line.toList

/-! ## Writing -/

open Text.Quoted (encodeIfNeeded) in
/-- The line of a record, without its terminator. -/
def encode : Record → List Char
  | value name text => "V ".toList ++ encodeIfNeeded name.toList ++ ' ' :: text.toList
  | set name op text =>
    "X ".toList ++ encodeIfNeeded name.toList ++ ' ' :: op.symbol :: ' ' :: text.toList
  | metaInfo code name description =>
    "METAINFO ".toList ++ Number.natText code.toNat ++ ' ' :: (Text.Quoted.encode name.toList ++
      ' ' :: Text.Quoted.encode description.toList)
  | symbolInfo name symbol =>
    "SELMETAINFO ".toList ++ Text.Quoted.encode name.toList ++
      ' ' :: Text.Quoted.encode symbol.toList
  | status bits => "S ".toList ++ Number.natText bits.toNat
  | blocking bits => "B ".toList ++ Number.natText bits.toNat
  | message m => "MESSAGE ".toList ++ m.encode
  | technical text => "T ".toList ++ text.toList
  | reply code reason =>
    Number.signedCode code.toInt ++ ' ' :: Text.Quoted.encode reason.toList
  | command opcode params =>
    if params.isEmpty then opcode.toList else opcode.toList ++ ' ' :: params.toList

def toLine (r : Record) : String := String.ofList r.encode

end Record

def replyLine (code : Int32) (reason : String) : String := (Record.reply code reason).toLine

end Observatory
