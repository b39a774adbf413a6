import Observatory.Connection.Dispatch
/-!
# Passes over a transport

One pass reads until nothing is there and writes until nothing more is taken. A pass says
whether it got anywhere.
-/

namespace Observatory.Connection

variable {τ σ : Type}

/-- How a connect came to an end, if it did. -/
inductive ConnectAnswer (τ : Type) where
  | pending
  | connected (stream : τ)
  | failed (reason : String)

def pollConnect (answer : ConnectAnswer τ) (now : Instant) (c : Connection τ) :
    Bool × Connection τ :=
  match c.link, answer with
  | .connecting _, .connected stream =>
    let c := { c with link := .stream stream, state := .established, lastActivity := now }
    (true, (c.emit (.connectionEstablished c.id c.name)).pump)
  | .connecting _, .failed reason => (true, c.finishClose (.io reason))
  | _, _ => (false, c)

/-! ## Reading -/

/-- The bytes read at once. -/
def readChunk : Nat := 4096

/-- The peer will send no more. A child that still runs is waited for. -/
def endOfInput (c : Connection τ) : Connection τ :=
  let c := { c with readClosed := true }
  match c.helper with
  -- without its exit status the end of a child cannot be told yet
  | some h => if h.reaped then c.finishClose .childEnded else c
  | none => c.finishClose .peerClosed

/-- Reads until nothing is there, at most so many times; `moved` says whether the pass got
anywhere before. -/
def readFor (T : Transport τ) (dev : Device σ) (now : Instant) :
    Nat → Bool → Turn τ σ → Bool × Turn τ σ
  | 0, moved, t => (moved, t)
  | readings + 1, moved, t =>
    match t.conn.wantsRead, t.conn.link with
    | true, .stream s =>
      let (answer, s) := T.read readChunk s
      let t := t.onConn fun c => { c with link := .stream s }
      match answer with
      | .notReady => (moved, t)
      | .wouldBlock => (moved, t)
      | .endOfStream => (true, t.onConn endOfInput)
      | .failed reason => (true, t.onConn (finishClose (.io reason)))
      | .data [] => (true, t.onConn endOfInput)
      | .data bytes => readFor T dev now readings true (receive dev now bytes t)
    | _, _ => (moved, t)

/-- Reads until nothing is there. -/
def readPass (T : Transport τ) (dev : Device σ) (now : Instant) (t : Turn τ σ) :
    Bool × Turn τ σ :=
  match t.conn.link with
  | .stream s => readFor T dev now (T.readings s + 1) false t
  | _ => (false, t)

/-! ## Writing -/

/-- Writes until nothing more is taken, at most so many times. Gives whether the pass got
anywhere, and whether it ended by closing the connection. -/
def writeFor (T : Transport τ) : Nat → Bool → Connection τ → Bool × Bool × Connection τ
  | 0, moved, c => (moved, false, c)
  | writings + 1, moved, c =>
    match c.output, c.link with
    | [], _ => (moved, false, c)
    | _ :: _, .stream s =>
      let (answer, s) := T.write c.output s
      let c := { c with link := .stream s }
      match answer with
      | .notReady => (moved, false, c)
      | .wouldBlock => (moved, false, c)
      | .accepted 0 => (true, true, c.finishClose (.io "write returned zero"))
      | .accepted count => writeFor T writings true { c with output := c.output.drop count }
      | .failed reason => (true, true, c.finishClose (.io reason))
    | _, _ => (moved, false, c)

/-- Writes until nothing more is taken; every writing takes at least one byte. A connection that
was only kept for its output is closed when that is empty. -/
def writePass (T : Transport τ) (c : Connection τ) : Bool × Connection τ :=
  let (moved, failed, c) := writeFor T (c.output.length + 1) false c
  if failed then (true, c)
  else if c.output.isEmpty && c.state == .draining then (true, c.finishClose .requested)
  else (moved, c)

/-! ## The error stream of a child -/

/-- The bytes read at once from an error stream. -/
def errorChunk : Nat := 1024

/-- Reads an error stream until nothing is there, at most so many times. Gives whether that got
anywhere, and the bytes read, behind those read before. -/
def readErrorsFor (T : Transport τ) : Nat → Bool → Bytes → Helper τ → Bool × Bytes × Helper τ
  | 0, moved, read, h => (moved, read, h)
  | readings + 1, moved, read, h =>
    match h.errors with
    | none => (moved, read, h)
    | some s =>
      let (answer, s) := T.read errorChunk s
      let h := { h with errors := some s }
      match answer with
      | .notReady => (moved, read, h)
      | .wouldBlock => (moved, read, h)
      | .endOfStream => (true, read, { h with errors := none })
      | .failed _ => (true, read, { h with errors := none })
      | .data [] => (true, read, { h with errors := none })
      | .data bytes => readErrorsFor T readings true (read ++ bytes) h

/-- Reports the lines that the bytes complete. Lines that cannot be read are passed over. -/
def reportErrors (conn : ConnId) (bytes : Bytes) (h : Helper τ) : Helper τ :=
  let (frames, errorLines) := h.errorLines.push bytes
  let lines := frames.filterMap fun
    | .ok line => some (.errorLine conn line)
    | .error _ => none
  { h with errorLines, reports := h.reports ++ lines }

/-- Reads the error stream until nothing is there and then reports its complete lines. -/
def errorPass (T : Transport τ) (c : Connection τ) : Bool × Connection τ :=
  match c.helper with
  | none => (false, c)
  | some h =>
    let readings := match h.errors with
      | some s => T.readings s + 1
      | none => 0
    let (moved, read, h) := readErrorsFor T readings false [] h
    (moved, { c with helper := some (reportErrors c.id read h) })

end Observatory.Connection
