import Observatory.Proofs.Command.Queue
import Observatory.Proofs.Connection.Owner
import Observatory.Proofs.Connection.Written
/-!
# Dealings with the peer

Whatever a connection makes of its peer's bytes, of commands that are put to it, of the state of its
link and of the time, it leaves the child behind it alone and reports no end of it; what it writes
are commands and plain records, and none of these records announces the status of the endpoint.

* `Converses` — what such dealings keep, where the commands put to the connection are of a kind.
* `converses_queueCommand`, `converses_receive`, `converses_close`, `converses_readPass`,
  `converses_idleEstablished` — the dealings.
* `writePass_induct` — what is kept where output is given away.
-/

namespace Observatory

open Framing (stream)

/-- Whether an event reports the end of a child. -/
def Event.isChildEnd : Event → Bool
  | childEnded _ _ _ => true
  | _ => false

/-- The word that a record announces as the status of its sender. -/
def Record.status? : Record → Option UInt32
  | status bits => some bits
  | _ => none

@[simp] theorem Completion.isChildEnd_event (c : Completion) : c.event.isChildEnd = false := by
  unfold Completion.event
  split <;> rfl

/-- A record that a connection writes beside commands and beside the status. -/
def Record.IsTalk (r : Record) : Prop := r.IsPlain ∧ r.status? = none

theorem Value.isTalk_of_mem_pushRecords {v : Value} {announced : List String} {r : Record}
    (h : r ∈ v.pushRecords announced) : r.IsTalk := by
  refine ⟨(Value.isPlain_of_mem_pushRecords h).1, ?_⟩
  unfold pushRecords metaRecords at h
  rcases List.mem_append.1 h with h | h
  · split at h
    · cases h
    · rcases List.mem_cons.1 h with rfl | h
      · rfl
      · split at h
        · obtain ⟨symbol, -, rfl⟩ := List.mem_map.1 h
          rfl
        · cases h
  · rw [List.mem_singleton.1 h]
    rfl

namespace Connection

variable {τ σ : Type} {Q : Command → Prop}

/-- A command that waits or is in flight, or one of a kind that is still to come. -/
def Expects (Q : Command → Prop) (c : Connection τ) (command : Command) : Prop :=
  (∃ q ∈ c.queue.pending, q.command = command) ∨ Q command

/-- A line of talk, or the line of a command. -/
def Utters (Q : Command → Prop) (c : Connection τ) (line : Bytes) : Prop :=
  (∃ r : Record, r.IsTalk ∧ line = lineBytes r.encode) ∨
    ∃ command, c.Expects Q command ∧ line = lineBytes command.encode

/-- What dealings with the peer keep. -/
structure Converses (Q : Command → Prop) (c d : Connection τ) : Prop where
  id : d.id = c.id
  name : d.name = c.name
  kind : d.kind = c.kind
  helper : d.helper = c.helper
  up : d.isEstablished = true → c.isEstablished = true
  waits : d.state = .connecting → c.state = .connecting
  expects : ∀ q ∈ d.queue.pending, c.Expects Q q.command
  events : ∃ news, d.events = c.events ++ news ∧ ∀ e ∈ news, e.isChildEnd = false
  lines : ∃ lines, d.output = c.output ++ stream lines ∧ ∀ l ∈ lines, Utters Q c l

/-- Nothing is reported or written. -/
theorem Converses.of_same {c d : Connection τ} (hid : d.id = c.id) (hname : d.name = c.name)
    (hkind : d.kind = c.kind) (hhelper : d.helper = c.helper) (hstate : d.state = c.state)
    (hqueue : d.queue = c.queue) (hevents : d.events = c.events) (houtput : d.output = c.output) :
    Converses Q c d where
  id := hid
  name := hname
  kind := hkind
  helper := hhelper
  up := fun h => by unfold isEstablished at h ⊢; rwa [hstate] at h
  waits := fun h => by rwa [hstate] at h
  expects := fun q hq => .inl ⟨q, by rwa [hqueue] at hq, rfl⟩
  events := ⟨[], by simp [hevents], by simp⟩
  lines := ⟨[], by simp [houtput], by simp⟩

theorem Converses.refl (c : Connection τ) : Converses Q c c :=
  .of_same rfl rfl rfl rfl rfl rfl rfl rfl

theorem Converses.expects_of {c d : Connection τ} (h : Converses Q c d) {command : Command}
    (hd : d.Expects Q command) : c.Expects Q command := by
  rcases hd with ⟨q, hq, rfl⟩ | hd
  · exact h.expects q hq
  · exact .inr hd

theorem Converses.trans {c d e : Connection τ} (h : Converses Q c d) (h' : Converses Q d e) :
    Converses Q c e := by
  obtain ⟨ms, hms, hchild⟩ := h.events
  obtain ⟨ns, hns, hchild'⟩ := h'.events
  obtain ⟨ls, hls, hutters⟩ := h.lines
  obtain ⟨ks, hks, hutters'⟩ := h'.lines
  refine ⟨h'.id.trans h.id, h'.name.trans h.name, h'.kind.trans h.kind, h'.helper.trans h.helper,
    fun hup => h.up (h'.up hup), fun hwaits => h.waits (h'.waits hwaits),
    fun q hq => h.expects_of (h'.expects q hq),
    ⟨ms ++ ns, by rw [hns, hms, List.append_assoc], fun x hx => ?_⟩, ⟨ls ++ ks, ?_, fun l hl => ?_⟩⟩
  · rcases List.mem_append.1 hx with hx | hx
    · exact hchild x hx
    · exact hchild' x hx
  · rw [hks, hls, Framing.stream_append, List.append_assoc]
  · rcases List.mem_append.1 hl with hl | hl
    · exact hutters l hl
    · rcases hutters' l hl with htalk | ⟨command, hcommand, hline⟩
      · exact .inl htalk
      · exact .inr ⟨command, h.expects_of hcommand, hline⟩

/-! ## Reporting and writing -/

theorem converses_emit {e : Event} (he : e.isChildEnd = false) (c : Connection τ) :
    Converses Q c (c.emit e) :=
  { Converses.refl c with events := ⟨[e], rfl, by simpa using he⟩ }

theorem converses_send {r : Record} (hr : r.IsTalk) (c : Connection τ) :
    Converses Q c (c.send r) := by
  rw [send_eq]
  refine { Converses.refl c with lines := ⟨[lineBytes r.encode], rfl, fun l hl => ?_⟩ }
  exact .inl ⟨r, hr, List.mem_singleton.1 hl⟩

theorem converses_sendReply (code : Int32) (reason : String) (c : Connection τ) :
    Converses Q c (c.sendReply code reason) :=
  converses_send (r := .reply code reason) ⟨trivial, rfl⟩ c

theorem converses_sendValue (v : Value) (c : Connection τ) : Converses Q c (c.sendValue v) := by
  rw [sendValue_eq]
  refine { Converses.refl c with
    lines := ⟨(v.pushRecords c.announced).map fun r => lineBytes r.encode, rfl, fun l hl => ?_⟩ }
  obtain ⟨r, hr, rfl⟩ := List.mem_map.1 hl
  exact .inl ⟨r, Value.isTalk_of_mem_pushRecords hr, rfl⟩

theorem converses_sendValues (values : List Value) (c : Connection τ) :
    Converses Q c (values.foldl (fun c v => c.sendValue v) c) := by
  induction values generalizing c with
  | nil => exact .refl c
  | cons v vs ih => exact (converses_sendValue v c).trans (ih _)

theorem converses_broadcastDirty (values : Registry) (c : Connection τ) :
    Converses Q c (c.broadcastDirty values) := by
  unfold broadcastDirty
  split
  · exact converses_sendValues _ c
  · exact .refl c

/-- The next command that waits is written. -/
theorem converses_pump (c : Connection τ) : Converses Q c c.pump := by
  rcases performs_pump c with h | ⟨-, -, q, h⟩
  · rw [h]
    exact .refl c
  · generalize c.pump = d at h ⊢
    cases h with
    | @start _ rest hup hnone hwaiting =>
      have hpending := CommandQueue.pending_of_startNext hnone hwaiting
      rw [sendLine_eq]
      refine { Converses.refl (Q := Q) c with
        expects := fun p hp => .inl ⟨p, hpending ▸ hp, rfl⟩
        lines := ⟨[lineBytes q.command.encode], rfl, fun l hl => .inr ⟨q.command, ?_, ?_⟩⟩ }
      · exact .inl ⟨q, by simp [CommandQueue.pending, hwaiting], rfl⟩
      · exact List.mem_singleton.1 hl

/-- A command is taken in, sent at once or turned away. -/
theorem converses_queueCommand {command : Command} (hcommand : Q command) (urgent : Bool)
    (c : Connection τ) : Converses Q c (c.queueCommand urgent command).2 := by
  rcases performs_queueCommand urgent command c with
    ⟨e, h⟩ | ⟨e, d, hd, h⟩ | ⟨handle, d, hd, h⟩
  · rw [h]
    exact .refl c
  · rw [h]
    cases hd with
    | refuse _ => exact { Converses.refl c with }
  · rw [h]
    cases hd with
    | @accept _ _ _ queue _ hinsert =>
      have haccept : Converses Q c { c with queue } := by
        refine { Converses.refl c with expects := fun q hq => ?_ }
        rcases List.mem_cons.1 ((CommandQueue.insert_pending hinsert).mem_iff.1 hq) with rfl | hq
        · exact .inr hcommand
        · exact .inl ⟨q, hq, rfl⟩
      exact haccept.trans (converses_pump _)

theorem converses_finishClose (reason : CloseReason) (c : Connection τ) :
    Converses Q c (c.finishClose reason) := by
  obtain ⟨-, stats, hqueue⟩ := CommandQueue.failAll_eq connectionLost (-4) c.queue
  refine { Converses.refl c with
    up := fun h => by cases h
    waits := fun h => by cases h
    expects := fun q hq => ?_
    events := ⟨(c.queue.failAll connectionLost (-4)).1.map Event.commandFailed ++
      [.connectionClosed c.id c.name reason], ?_, fun e he => ?_⟩ }
  · simp [finishClose, hqueue, CommandQueue.pending] at hq
  · exact List.append_assoc _ _ _
  · rcases List.mem_append.1 he with he | he
    · obtain ⟨x, -, rfl⟩ := List.mem_map.1 he
      rfl
    · rw [List.mem_singleton.1 he]
      rfl

theorem converses_close (reason : CloseReason) (c : Connection τ) :
    Converses Q c (c.close reason) := by
  rcases performs_close reason c with h | h | h
  · rw [h]
    exact .refl c
  · generalize c.close reason = d at h ⊢
    cases h with
    | drain _ _ =>
      exact { Converses.refl c with
        up := fun hup => by cases hup
        waits := fun hwaits => by cases hwaits }
  · generalize c.close reason = d at h ⊢
    cases h with
    | close _ _ => exact converses_finishClose reason c

/-! ## Records -/

theorem converses_replicate (name text : String) (c : Connection τ) :
    Converses Q c (c.replicate name text).1 := by
  unfold replicate
  split
  · exact .refl c
  · split
    · exact { converses_emit (e := .valueChanged c.id name) rfl (c.putReplica name _) with }
    · exact .refl c

theorem converses_announce (code : UInt32) (name description : String) (c : Connection τ) :
    Converses Q c (c.announce code name description).1 := by
  unfold announce
  split
  · exact { Converses.refl c with }
  · exact .refl c

theorem converses_announceSymbol (name symbol : String) (c : Connection τ) :
    Converses Q c (c.announceSymbol name symbol) := by
  unfold announceSymbol
  split
  · exact .refl c
  · exact { Converses.refl c with }

theorem converses_receiveStatus (bits : UInt32) (c : Connection τ) :
    Converses Q c (c.receiveStatus bits) := by
  unfold receiveStatus
  dsimp only
  split
  · exact .refl c
  · have hnew : Converses Q c { c with status := ⟨bits⟩ } := { Converses.refl c with }
    exact hnew.trans (converses_emit rfl _)

theorem converses_receiveTechnical (text : String) (c : Connection τ) :
    Converses Q c (c.receiveTechnical text) := by
  unfold receiveTechnical
  split
  · exact converses_send (r := .technical "OK") ⟨(by decide : Text.OneLine "OK".toList), rfl⟩ c
  · exact .refl c

theorem converses_requeue (c : Connection τ) :
    Converses Q c { c with queue := c.queue.requeue.2 } := by
  refine { Converses.refl c with expects := fun q hq => .inl ⟨q, ?_, rfl⟩ }
  cases hflight : c.queue.inFlight with
  | none => simpa [CommandQueue.requeue, hflight] using hq
  | some first =>
    cases hfull : c.queue.isFull with
    | true => simpa [CommandQueue.requeue_of_full hfull] using hq
    | false => simpa [CommandQueue.pending_of_requeue hflight hfull] using hq

theorem converses_complete {c : Connection τ} {q : Queued} (hq : c.queue.inFlight = some q)
    (outcome : Outcome) (code : Int32) :
    Converses Q c (emit (q.complete outcome code).event
      { c with queue := (c.queue.complete outcome code).2 }) := by
  have hdone : Converses Q c { c with queue := (c.queue.complete outcome code).2 } := by
    refine { Converses.refl c with expects := fun p hp => .inl ⟨p, ?_, rfl⟩ }
    simp only [CommandQueue.complete_eq hq, CommandQueue.pending, Option.toList_none,
      List.nil_append] at hp
    exact List.mem_append_right _ hp
  exact hdone.trans (converses_emit (by simp) _)

theorem converses_receiveReply (code : Int32) (reason : String) (c : Connection τ) :
    Converses Q c (c.receiveReply code reason) := by
  unfold receiveReply
  cases hflight : c.queue.inFlight with
  | none => exact converses_finishClose _ c
  | some q =>
    simp only [Option.isNone_some, Bool.false_eq_true, if_false]
    split
    · exact .refl c
    · split
      · exact converses_requeue c
      · generalize (if 0 ≤ code then Outcome.ok else Outcome.failed reason) = outcome
        have hcompletion : (c.queue.complete outcome code).1 = some (q.complete outcome code) := by
          simp only [CommandQueue.complete, hflight, CommandQueue.finish]
        simp only [hcompletion]
        exact (converses_complete hflight outcome code).trans (converses_pump _)

/-! ## Requests -/

theorem converses_receiveSet (dev : Device σ) (name : String) (op : Operator) (text : String)
    (t : Turn τ σ) : Converses Q t.conn (receiveSet dev name op text t).1.conn := by
  unfold receiveSet
  dsimp only
  split
  · exact converses_sendReply _ _ _
  · split
    · exact converses_sendReply _ _ _
    · split
      · exact converses_sendReply _ _ _
      · exact converses_sendReply _ _ _
      · split
        · exact converses_sendReply _ _ _
        · exact (converses_sendReply _ _ _).trans (converses_emit rfl _)

theorem converses_receiveInfo (dev : Device σ) (t : Turn τ σ) :
    Converses Q t.conn (receiveInfo dev t).conn := by
  unfold receiveInfo
  dsimp only
  split
  · exact converses_sendReply _ _ _
  · exact (converses_sendValues _ _).trans (converses_sendReply _ _ _)

theorem converses_receiveCommand (dev : Device σ) (opcode params : String) (t : Turn τ σ) :
    Converses Q t.conn (receiveCommand dev opcode params t).1.conn := by
  unfold receiveCommand
  split
  · exact converses_receiveInfo dev t
  · split
    · exact converses_receiveSet dev _ _ _ t
    · dsimp only
      split <;> exact converses_sendReply _ _ _

/-- **One record.** -/
theorem converses_dispatch (dev : Device σ) (r : Record) (t : Turn τ σ) :
    Converses Q t.conn (dispatch dev r t).1.conn := by
  cases r with
  | value name text => exact converses_replicate name text t.conn
  | set name op text => exact converses_receiveSet dev name op text t
  | metaInfo code name description => exact converses_announce code name description t.conn
  | symbolInfo name symbol => exact converses_announceSymbol name symbol t.conn
  | status bits => exact converses_receiveStatus bits t.conn
  | blocking bits => exact { Converses.refl t.conn with }
  | message m => exact converses_emit rfl t.conn
  | technical text => exact converses_receiveTechnical text t.conn
  | reply code reason => exact converses_receiveReply code reason t.conn
  | command opcode params => exact converses_receiveCommand dev opcode params t

/-! ## Bytes -/

theorem converses_countParseError (c : Connection τ) : Converses Q c c.countParseError := by
  have hcount : Converses Q c { c with parseErrors := c.parseErrors + 1 } :=
    { Converses.refl c with }
  rcases countParseError_cases c with h | h
  · rw [h]
    exact hcount
  · rw [h]
    exact hcount.trans (converses_finishClose _ _)

theorem converses_processLine (dev : Device σ) (line : String) (t : Turn τ σ) :
    Converses Q t.conn (processLine dev line t).conn := by
  cases hparse : Record.parse line with
  | error e =>
    rcases processLine_error dev t hparse with h | h
    · rw [h]
      exact .refl _
    · rw [h]
      exact converses_countParseError t.conn
  | ok r =>
    have hrecord : Converses Q t.conn (dispatch dev r t).1.conn := converses_dispatch dev r t
    rw [processLine_ok dev t hparse]
    generalize dispatch dev r t = p at hrecord ⊢
    obtain ⟨t', complaint⟩ := p
    cases complaint with
    | none =>
      have hreset : Converses Q t'.conn { t'.conn with parseErrors := 0 } :=
        { Converses.refl t'.conn with }
      exact hrecord.trans hreset
    | some e => exact hrecord.trans (converses_countParseError t'.conn)

theorem converses_processFrame (dev : Device σ) (t : Turn τ σ) (frame : Framing.Frame) :
    Converses Q t.conn (processFrame dev t frame).conn := by
  unfold processFrame
  split
  · exact .refl _
  · split
    · exact converses_processLine dev _ t
    · exact converses_countParseError t.conn

theorem converses_frames (dev : Device σ) (frames : List Framing.Frame) (t : Turn τ σ) :
    Converses Q t.conn (frames.foldl (processFrame dev) t).conn := by
  induction frames generalizing t with
  | nil => exact .refl _
  | cons frame frames ih => exact (converses_processFrame dev t frame).trans (ih _)

/-- **Bytes of the peer.** -/
theorem converses_receive (dev : Device σ) (now : Instant) (bytes : Bytes) (t : Turn τ σ) :
    Converses Q t.conn (receive dev now bytes t).conn := by
  have hheard : Converses Q t.conn { t.conn with
      lastActivity := now, lastKeepalive := none, input := (t.conn.input.push bytes).2 } :=
    { Converses.refl t.conn with }
  exact hheard.trans (converses_frames dev _ (t.onConn fun c => { c with
    lastActivity := now, lastKeepalive := none, input := (t.conn.input.push bytes).2 }))

/-! ## The link and the time -/

theorem converses_endOfInput (c : Connection τ) : Converses Q c c.endOfInput := by
  have hread : Converses Q c { c with readClosed := true } := { Converses.refl c with }
  unfold endOfInput
  dsimp only
  split
  · split
    · exact hread.trans (converses_finishClose _ _)
    · exact hread
  · exact hread.trans (converses_finishClose _ _)

/-- Reading goes on for as long as bytes are there, so the induction is on the readings left. -/
theorem converses_readFor (T : Transport τ) (dev : Device σ) (now : Instant) (readings : Nat)
    (moved : Bool) (t : Turn τ σ) :
    Converses Q t.conn (readFor T dev now readings moved t).2.conn := by
  induction readings generalizing moved t with
  | zero => exact .refl t.conn
  | succ readings ih =>
    unfold readFor
    split
    · next s hwants hlink =>
      obtain ⟨answer, s'⟩ := T.read readChunk s
      have hread : Converses Q t.conn { t.conn with link := .stream s' } :=
        { Converses.refl t.conn with }
      dsimp only
      split
      · exact hread
      · exact hread
      · exact hread.trans (converses_endOfInput _)
      · exact hread.trans (converses_finishClose _ _)
      · exact hread.trans (converses_endOfInput _)
      · next bytes _ =>
        have hreceive := converses_receive (Q := Q) dev now bytes
          (t.onConn fun c => { c with link := .stream s' })
        exact hread.trans (hreceive.trans (ih true _))
    · exact .refl t.conn

theorem converses_readPass (T : Transport τ) (dev : Device σ) (now : Instant) (t : Turn τ σ) :
    Converses Q t.conn (readPass T dev now t).2.conn := by
  unfold readPass
  split
  · exact converses_readFor T dev now _ _ t
  · exact .refl t.conn

theorem converses_watchSilence (now : Instant) (timeout : Duration) (c : Connection τ) :
    Converses Q c (c.watchSilence now timeout) := by
  have hasked : Converses Q c { c.send (.technical "ready") with lastKeepalive := some now } :=
    (converses_send (r := .technical "ready")
      ⟨(by decide : Text.OneLine "ready".toList), rfl⟩ c).trans
      { Converses.refl (c.send (.technical "ready")) with }
  unfold watchSilence
  dsimp only
  split
  · exact converses_finishClose _ c
  · cases c.lastKeepalive <;> dsimp only <;> split
    · exact hasked
    · exact .refl c
    · exact hasked
    · exact .refl c

/-- The timers of a connection whose child, if there is one, is in time. -/
theorem converses_idleEstablished (now : Instant) (c : Connection τ) :
    Converses Q c (c.idleEstablished now) := by
  unfold idleEstablished
  split
  · dsimp only
    split
    · exact converses_pump c
    · exact (converses_pump c).trans (converses_watchSilence now _ _)
  · exact .refl c

/-! ## Writing -/

/-- Writing changes the link, gives output away and may end by closing. What none of these can break
holds after a pass. -/
theorem writePass_induct {P : Connection τ → Prop}
    (hlink : ∀ (c : Connection τ) (link : Link τ), P c → P { c with link })
    (hflush : ∀ (c : Connection τ) (count : Nat), P c → P { c with output := c.output.drop count })
    (hclose : ∀ (c : Connection τ) (reason : CloseReason), P c → P (c.finishClose reason))
    (T : Transport τ) {c : Connection τ} (hc : P c) : P (c.writePass T).2 := by
  have hwritten (writings : Nat) (moved : Bool) {c : Connection τ} (hc : P c) :
      P (writeFor T writings moved c).2.2 := by
    induction writings generalizing moved c with
    | zero => exact hc
    | succ writings ih =>
      unfold writeFor
      split
      · exact hc
      · next s _ _ =>
        obtain ⟨answer, s'⟩ := T.write c.output s
        have htouched := hlink c (.stream s') hc
        dsimp only
        split
        · exact htouched
        · exact htouched
        · exact hclose _ _ htouched
        · exact ih true (hflush _ _ htouched)
        · exact hclose _ _ htouched
      · exact hc
  unfold writePass
  dsimp only
  split
  · exact hwritten _ _ hc
  · split
    · exact hclose _ _ (hwritten _ _ hc)
    · exact hwritten _ _ hc

end Connection

end Observatory
