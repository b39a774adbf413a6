import Observatory.Connection.Basic
import Observatory.Proofs.Record.Stream
/-!
# What a connection writes

Everything a connection writes goes to the end of its output, in whole lines, and writing changes
nothing else but the list of the announced values.

* `foldl_send_eq` — several records, one line each.
* `sendValue_eq` — a value is written behind its announcement, the first time it is pushed.
-/

namespace Observatory

open Framing (stream)

/-- The bytes of a line of text, without its end. -/
def lineBytes (line : List Char) : Bytes := Text.Utf8.encode (String.ofList line)

/-- The bytes of records, each with its end. -/
def recordBytes (records : List Record) : Bytes :=
  stream (records.map fun r => lineBytes r.encode)

@[simp] theorem recordBytes_nil : recordBytes [] = [] := rfl

@[simp] theorem recordBytes_append (a b : List Record) :
    recordBytes (a ++ b) = recordBytes a ++ recordBytes b := by
  simp [recordBytes]

theorem recordBytes_singleton (r : Record) :
    recordBytes [r] = lineBytes r.encode ++ [lineFeed] := by
  simp [recordBytes]

/-- The records that push a value to a peer that knows the given names. -/
def Value.pushRecords (announced : List String) (v : Value) : List Record :=
  (if announced.contains v.name then [] else v.metaRecords) ++ [v.record]

/-- The names that a peer knows after a value was pushed to it. -/
def Value.pushNames (announced : List String) (v : Value) : List String :=
  if announced.contains v.name then announced else announced ++ [v.name]

namespace Connection

variable {τ : Type}

theorem sendLine_eq (line : List Char) (c : Connection τ) :
    c.sendLine line = { c with output := c.output ++ stream [lineBytes line] } := by
  simp [sendLine, lineBytes]

theorem send_eq (r : Record) (c : Connection τ) :
    c.send r = { c with output := c.output ++ recordBytes [r] } := sendLine_eq r.encode c

theorem foldl_send_eq (records : List Record) (c : Connection τ) :
    records.foldl (fun c r => c.send r) c =
      { c with output := c.output ++ recordBytes records } := by
  induction records generalizing c with
  | nil => simp
  | cons r rs ih =>
    have hcons : recordBytes (r :: rs) = recordBytes [r] ++ recordBytes rs :=
      recordBytes_append [r] rs
    rw [List.foldl_cons, ih, send_eq, hcons, List.append_assoc]

/-- A value is written behind its announcement, the first time it is pushed. -/
theorem sendValue_eq (v : Value) (c : Connection τ) : c.sendValue v =
    { c with output := c.output ++ recordBytes (v.pushRecords c.announced)
             announced := v.pushNames c.announced } := by
  unfold sendValue Value.pushRecords Value.pushNames
  by_cases h : c.announced.contains v.name = true
  · simp only [if_pos h, List.nil_append, send_eq]
  · simp only [if_neg h]
    rw [foldl_send_eq, send_eq, recordBytes_append, List.append_assoc]

end Connection

end Observatory
