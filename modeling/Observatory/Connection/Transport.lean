import Observatory.Text.Utf8
/-!
# Transports

A byte stream that never blocks. Asked to read or to write, it answers at once; what happens on
its far end is part of its state.
-/

namespace Observatory

/-- The answer to a reader. -/
inductive ReadAnswer where
  /-- Nothing is there; the stream will say when. -/
  | notReady
  /-- The stream reports that it would block. -/
  | wouldBlock
  | data (bytes : Bytes)
  | endOfStream
  | failed (reason : String)

/-- The answer to a writer. -/
inductive WriteAnswer where
  | notReady
  | wouldBlock
  /-- So many bytes were taken. -/
  | accepted (count : Nat)
  | failed (reason : String)

/-- A kind of byte stream with state `τ`. -/
structure Transport (τ : Type) where
  /-- Reads at most so many bytes. -/
  read : Nat → τ → ReadAnswer × τ
  /-- Offers bytes. -/
  write : Bytes → τ → WriteAnswer × τ
  /-- How many readings in a row can find something. One pass makes no more than one beyond
  them. -/
  readings : τ → Nat

end Observatory
