import Observatory.ParseError
import Observatory.Text.Utf8
/-!
# Framing

Bytes arrive in chunks of any size; records are lines that end with a line feed, in front of
which one carriage return is dropped. A line longer than the limit is reported once and
skipped up to its terminator.
-/

namespace Observatory

def lineFeed : UInt8 := 10

/-- Dropped once in front of the end of a line. -/
def carriageReturn : UInt8 := 13

/-- What has arrived of a line that is not yet complete. -/
structure Framing where
  limit : Nat
  held : Bytes := []
  /-- The line was reported as too long and is being skipped. -/
  discarding : Bool := false

namespace Framing

/-- A complete line, or the reason why it is none. -/
abbrev Frame := Except ParseError String

/-- The bytes up to each line feed, and those behind the last one. -/
def cut (bytes : Bytes) : List Bytes × Bytes :=
  bytes.foldr
    (fun b (lines, rest) =>
      if b = lineFeed then ([] :: lines, rest)
      else match lines with
        | [] => ([], b :: rest)
        | line :: lines => ((b :: line) :: lines, rest))
    ([], [])

/-- The bytes without one carriage return at their end. -/
def dropReturn (line : Bytes) : Bytes :=
  if line.getLast? = some carriageReturn then line.dropLast else line

/-- The frame of one line, its terminator removed. -/
def frameOf (limit : Nat) (line : Bytes) : Frame :=
  let content := dropReturn line
  if limit < content.length then .error (.tooLong limit)
  else match Text.Utf8.decode? content with
    | some text => .ok text
    | none => .error .invalidUtf8

/-- The frames of the complete lines. While a long line is being skipped, the first of them is
its end. -/
def framesOf (limit : Nat) : Bool → List Bytes → List Frame
  | _, [] => []
  | true, _ :: lines => lines.map (frameOf limit)
  | false, lines => lines.map (frameOf limit)

/-- Takes a chunk: every line it completes, and then one report if what is left has outgrown the
limit and was not reported before. -/
def push (f : Framing) (chunk : Bytes) : List Frame × Framing :=
  let (lines, rest) := cut (f.held ++ chunk)
  let frames := framesOf f.limit f.discarding lines
  let discarding := f.discarding && lines.isEmpty
  if rest.length ≤ f.limit then (frames, { f with held := rest, discarding })
  -- the line that grows here was reported with an earlier chunk
  else if discarding then (frames, { f with held := [], discarding })
  else (frames ++ [.error (.tooLong f.limit)], { f with held := [], discarding := true })

end Framing

end Observatory
