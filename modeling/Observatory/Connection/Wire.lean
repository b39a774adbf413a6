import Observatory.Connection.Transport
import Observatory.Text.Utf8
/-!
# Wires

A byte stream held in memory. What its far end sends and how much it takes is set from outside,
and so are the failures that a stream can run into.
-/

namespace Observatory

/-- A byte stream held in memory, seen from its near end. -/
structure Wire where
  /-- What the far end sent and nobody has read. -/
  incoming : Bytes := []
  /-- The most bytes that one reading or writing moves. -/
  chunk : Nat := 1048576
  /-- A failure that the next reading finds once everything sent was read. -/
  readError : Option String := none
  /-- Readings that find nothing report that they would block. -/
  readBlocks : Bool := false
  /-- The far end sends no more. -/
  ended : Bool := false
  /-- How many more bytes the far end takes. -/
  budget : Nat := 1048576
  /-- A failure that the next writing finds. -/
  writeError : Option String := none
  /-- Writings succeed and take nothing. -/
  writesNothing : Bool := false
  writeBlocks : Bool := false
  /-- What the far end took and has not picked up. -/
  outgoing : Bytes := []

namespace Wire

def read (limit : Nat) (w : Wire) : ReadAnswer × Wire :=
  if w.incoming.isEmpty then
    match w.readError with
    | some reason => (.failed reason, { w with readError := none })
    | none =>
      (if w.readBlocks then .wouldBlock else if w.ended then .endOfStream else .notReady, w)
  else
    let size := min limit w.chunk
    (.data (w.incoming.take size), { w with incoming := w.incoming.drop size })

def write (bytes : Bytes) (w : Wire) : WriteAnswer × Wire :=
  match w.writeError with
  | some reason => (.failed reason, { w with writeError := none })
  | none =>
    if w.writesNothing then (.accepted 0, w)
    else if w.writeBlocks then (.wouldBlock, w)
    else if w.budget = 0 then (.notReady, w)
    else
      let size := min bytes.length (min w.budget w.chunk)
      (.accepted size, { w with
        outgoing := w.outgoing ++ bytes.take size
        budget := w.budget - size })

/-- Adds to what the far end sent. -/
def feed (bytes : Bytes) (w : Wire) : Wire := { w with incoming := w.incoming ++ bytes }

/-- Takes what the far end got. -/
def pickUp (w : Wire) : Bytes × Wire := (w.outgoing, { w with outgoing := [] })

/-- Wires as streams of connections: every reading of data takes at least one byte, or reports
the end when nothing may be moved at once. -/
def transport : Transport Wire where
  read := read
  write := write
  readings w := w.incoming.length

end Wire

end Observatory
