import Observatory.Proofs.Connection.Output
import Observatory.Connection.Dispatch
/-!
# Chunks and frames

What a connection does with a frame does not depend on the bytes it holds or on when it last heard
of its peer. So chunks matter only through the frames they lead to.

* `processFrame_heard` — a frame is handled the same way whenever it arrives.
* `receiveAll_eq` — several chunks are handled like all of their frames at once.
-/

namespace Observatory

variable {τ σ : Type}

/-- What the arrival of bytes leaves behind in a connection. -/
structure Hearing where
  input : Framing
  lastActivity : Instant
  lastKeepalive : Option Instant

namespace Connection

/-- The connection after it heard of its peer. -/
def heard (h : Hearing) (c : Connection τ) : Connection τ :=
  { c with
    input := h.input
    lastActivity := h.lastActivity
    lastKeepalive := h.lastKeepalive }

end Connection

namespace Turn

def heard (h : Hearing) (t : Turn τ σ) : Turn τ σ := t.onConn (Connection.heard h)

end Turn

namespace Connection

variable (h : Hearing)

/-! ## Handlers -/

theorem sendAll_heard (values : Registry) (c : Connection τ) :
    (c.heard h).sendAll values = (c.sendAll values).heard h := by
  unfold sendAll
  induction values.values generalizing c with
  | nil => rfl
  | cons v vs ih =>
    have hsend : (c.heard h).sendValue v = (c.sendValue v).heard h := by
      rw [sendValue_eq, sendValue_eq]
      rfl
    rw [List.foldl_cons, List.foldl_cons, hsend, ih]

theorem replicate_heard (name text : String) (c : Connection τ) :
    (c.heard h).replicate name text =
      ((c.replicate name text).1.heard h, (c.replicate name text).2) := by
  have hreplica : (c.heard h).replica? name = c.replica? name := rfl
  unfold replicate
  rw [hreplica]
  cases c.replica? name with
  | none => rfl
  | some r =>
    dsimp only
    cases r.receive text <;> rfl

theorem announce_heard (code : UInt32) (name description : String) (c : Connection τ) :
    (c.heard h).announce code name description =
      ((c.announce code name description).1.heard h, (c.announce code name description).2) := by
  unfold announce
  cases Replica.announce code name description <;> rfl

theorem announceSymbol_heard (name symbol : String) (c : Connection τ) :
    (c.heard h).announceSymbol name symbol = (c.announceSymbol name symbol).heard h := by
  have hreplica : (c.heard h).replica? name = c.replica? name := rfl
  unfold announceSymbol
  rw [hreplica]
  cases c.replica? name <;> rfl

theorem receiveStatus_heard (bits : UInt32) (c : Connection τ) :
    (c.heard h).receiveStatus bits = (c.receiveStatus bits).heard h := by
  have hstatus : (c.heard h).status = c.status := rfl
  unfold receiveStatus
  dsimp only
  rw [hstatus]
  split <;> rfl

theorem receiveTechnical_heard (text : String) (c : Connection τ) :
    (c.heard h).receiveTechnical text = (c.receiveTechnical text).heard h := by
  unfold receiveTechnical
  split <;> rfl

theorem pump_heard (c : Connection τ) : (c.heard h).pump = c.pump.heard h := by
  have hup : (c.heard h).isEstablished = c.isEstablished := rfl
  have hqueue : (c.heard h).queue = c.queue := rfl
  unfold pump
  rw [hup, hqueue]
  split
  · obtain ⟨started, queue⟩ := c.queue.startNext
    cases started <;> rfl
  · rfl

theorem receiveReply_heard (code : Int32) (reason : String) (c : Connection τ) :
    (c.heard h).receiveReply code reason = (c.receiveReply code reason).heard h := by
  have hqueue : (c.heard h).queue = c.queue := rfl
  unfold receiveReply
  rw [hqueue]
  split
  · rfl
  · split
    · rfl
    · split
      · rfl
      · dsimp only
        generalize c.queue.complete _ code = completed
        obtain ⟨completion, queue⟩ := completed
        cases completion with
        | none => exact pump_heard h { c with queue }
        | some completion => exact pump_heard h (emit completion.event { c with queue })

theorem receiveSet_heard (dev : Device σ) (name : String) (op : Operator) (text : String)
    (t : Turn τ σ) : receiveSet dev name op text (t.heard h) =
      ((receiveSet dev name op text t).1.heard h, (receiveSet dev name op text t).2) := by
  have hown : (t.heard h).own = t.own := rfl
  unfold receiveSet
  simp only [hown]
  cases t.own.values.get? name with
  | none => rfl
  | some current =>
    dsimp only
    split
    · rfl
    · cases current.applyText op text with
      | error e => cases e <;> rfl
      | ok updated =>
        dsimp only
        split <;> rfl

theorem receiveInfo_heard (dev : Device σ) (t : Turn τ σ) :
    receiveInfo dev (t.heard h) = (receiveInfo dev t).heard h := by
  have hown : (t.heard h).own = t.own := rfl
  unfold receiveInfo
  rw [hown]
  generalize dev.info t.own.values t.own.device = answer
  obtain ⟨verdict, values, device⟩ := answer
  cases verdict with
  | error reason => rfl
  | ok _ =>
    dsimp only
    show Turn.mk (((t.conn.heard h).sendAll values).sendReply 0 "OK") _ = _
    rw [sendAll_heard]
    rfl

theorem receiveCommand_heard (dev : Device σ) (opcode params : String) (t : Turn τ σ) :
    receiveCommand dev opcode params (t.heard h) =
      ((receiveCommand dev opcode params t).1.heard h,
        (receiveCommand dev opcode params t).2) := by
  have hown : (t.heard h).own = t.own := rfl
  unfold receiveCommand
  rw [hown]
  split
  · rw [receiveInfo_heard]
  · split
    · exact receiveSet_heard h dev opcode .assign params t
    · generalize dev.command opcode params t.own.values t.own.device = answer
      obtain ⟨outcome, values, device⟩ := answer
      cases outcome <;> rfl

/-! ## Lines -/

theorem dispatch_heard (dev : Device σ) (r : Record) (t : Turn τ σ) :
    dispatch dev r (t.heard h) = ((dispatch dev r t).1.heard h, (dispatch dev r t).2) := by
  cases r with
  | value name text =>
    have hconn := replicate_heard h name text t.conn
    exact congrArg (fun p => (Turn.mk p.1 t.own, p.2)) hconn
  | metaInfo code name description =>
    have hconn := announce_heard h code name description t.conn
    exact congrArg (fun p => (Turn.mk p.1 t.own, p.2)) hconn
  | symbolInfo name symbol =>
    exact congrArg (fun c => (Turn.mk c t.own, none)) (announceSymbol_heard h ..)
  | status bits => exact congrArg (fun c => (Turn.mk c t.own, none)) (receiveStatus_heard h ..)
  | technical text =>
    exact congrArg (fun c => (Turn.mk c t.own, none)) (receiveTechnical_heard h ..)
  | reply code reason => exact congrArg (fun c => (Turn.mk c t.own, none)) (receiveReply_heard h ..)
  | blocking bits => rfl
  | message m => rfl
  | set name op text => exact receiveSet_heard h dev name op text t
  | command opcode params => exact receiveCommand_heard h dev opcode params t

theorem countParseError_heard (c : Connection τ) :
    (c.heard h).countParseError = c.countParseError.heard h := by
  have hmax : (c.heard h).maxParseErrors = c.maxParseErrors := rfl
  have herrors : (c.heard h).parseErrors = c.parseErrors := rfl
  unfold countParseError
  dsimp only
  rw [hmax, herrors]
  split <;> rfl

theorem processLine_heard (dev : Device σ) (line : String) (t : Turn τ σ) :
    processLine dev line (t.heard h) = (processLine dev line t).heard h := by
  unfold processLine
  split
  · rfl
  · cases Record.parse line with
    | error e => exact congrArg (Turn.mk · t.own) (countParseError_heard h t.conn)
    | ok r =>
      dsimp only
      rw [dispatch_heard]
      obtain ⟨t', e⟩ := dispatch dev r t
      cases e with
      | none => rfl
      | some e => exact congrArg (Turn.mk · t'.own) (countParseError_heard h t'.conn)

/-- **A frame** is handled the same way whenever it arrives. -/
theorem processFrame_heard (dev : Device σ) (t : Turn τ σ) (frame : Framing.Frame) :
    processFrame dev (t.heard h) frame = (processFrame dev t frame).heard h := by
  have hclosed : (t.heard h).conn.isClosed = t.conn.isClosed := rfl
  unfold processFrame
  rw [hclosed]
  split
  · rfl
  · cases frame with
    | ok line => exact processLine_heard h dev line t
    | error e => exact congrArg (Turn.mk · t.own) (countParseError_heard h t.conn)

theorem foldl_processFrame_heard (dev : Device σ) (frames : List Framing.Frame) (t : Turn τ σ) :
    frames.foldl (processFrame dev) (t.heard h) = (frames.foldl (processFrame dev) t).heard h := by
  induction frames generalizing t with
  | nil => rfl
  | cons frame frames ih => rw [List.foldl_cons, List.foldl_cons, processFrame_heard, ih]

/-! ## Chunks -/

/-- Takes chunks one after the other. -/
def receiveAll (dev : Device σ) (chunks : List (Instant × Bytes)) (t : Turn τ σ) : Turn τ σ :=
  chunks.foldl (fun t chunk => receive dev chunk.1 chunk.2 t) t

/-- **One chunk** is handled like its frames. -/
theorem receive_eq (dev : Device σ) (now : Instant) (bytes : Bytes) (t : Turn τ σ) :
    receive dev now bytes t = ((t.conn.input.push bytes).1.foldl (processFrame dev) t).heard
      ⟨(t.conn.input.push bytes).2, now, none⟩ :=
  foldl_processFrame_heard ⟨(t.conn.input.push bytes).2, now, none⟩ dev _ t

/-- **Several chunks** are handled like all of their frames at once. -/
theorem receiveAll_eq (dev : Device σ) (chunks : List (Instant × Bytes)) (t : Turn τ σ) :
    ∃ h : Hearing, receiveAll dev chunks t =
      ((t.conn.input.framesOfChunks (chunks.map Prod.snd)).foldl (processFrame dev) t).heard h := by
  induction chunks generalizing t with
  | nil => exact ⟨⟨_, _, _⟩, rfl⟩
  | cons chunk chunks ih =>
    obtain ⟨h, hall⟩ := ih (receive dev chunk.1 chunk.2 t)
    refine ⟨h, ?_⟩
    have hstep : receiveAll dev (chunk :: chunks) t =
        receiveAll dev chunks (receive dev chunk.1 chunk.2 t) := rfl
    rw [hstep, hall, receive_eq, foldl_processFrame_heard, List.map_cons, Framing.framesOfChunks,
      List.foldl_append]
    rfl

end Connection

end Observatory
