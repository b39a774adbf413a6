import Observatory.Proofs.Connection.Chunks
import Observatory.Proofs.Connection.Owner
import Observatory.Proofs.Session.Safety
/-!
# What dealings leave alone

A connection touches its stream when it reads and when it writes. Everything else that it does
leaves the stream alone, or ends the connection and gives the stream back, and each kind of dealing
ends it for reasons of its own. Its limit to silence and the child behind it stay as they are.

* `Steady` — what dealings keep that do not end the connection; `Runs` — dealings that may.
* `runs_receive`, `runs_readPass`, `runs_idleEstablished` — the dealings.
-/

namespace Observatory.Connection

variable {τ σ α : Type} {see : τ → α}

/-- What is to be seen of the streams of a connection, those given back and the one in use. -/
def seen (see : τ → α) (c : Connection τ) : List α := (c.released ++ c.link.stream?.toList).map see

@[simp] theorem seen_finishClose (see : τ → α) (reason : CloseReason) (c : Connection τ) :
    (c.finishClose reason).seen see = c.seen see := by
  simp [seen, finishClose, Link.stream?]

/-- The stream in use is the last one. -/
theorem seen_of_stream (see : τ → α) {c : Connection τ} {s : τ} (hlink : c.link = .stream s) :
    c.seen see = c.released.map see ++ [see s] := by
  simp [seen, hlink, Link.stream?]

/-! ## Dealings that do not end the connection -/

/-- The connection is the same, as far as it has come and on the same sort of link. Nothing that is
to be seen of its streams has changed, and no end is reported. -/
structure Steady (see : τ → α) (c d : Connection τ) : Prop where
  id : d.id = c.id
  name : d.name = c.name
  state : d.state = c.state
  stream : d.link.isStream = c.link.isStream
  timeout : d.timeout = c.timeout
  helper : d.helper = c.helper
  seen : d.seen see = c.seen see
  events : ∃ news, d.events = c.events ++ news ∧ ∀ e ∈ news, e.isEnd = false

theorem Steady.refl (c : Connection τ) : Steady see c c where
  id := rfl
  name := rfl
  state := rfl
  stream := rfl
  timeout := rfl
  helper := rfl
  seen := rfl
  events := ⟨[], by simp, by simp⟩

theorem Steady.trans {c d e : Connection τ} (h : Steady see c d) (h' : Steady see d e) :
    Steady see c e := by
  obtain ⟨ms, hms, hmid⟩ := h.events
  obtain ⟨ns, hns, hlast⟩ := h'.events
  refine ⟨h'.id.trans h.id, h'.name.trans h.name, h'.state.trans h.state, h'.stream.trans h.stream,
    h'.timeout.trans h.timeout, h'.helper.trans h.helper, h'.seen.trans h.seen,
    ms ++ ns, by rw [hns, hms, List.append_assoc], ?_⟩
  intro e he
  rcases List.mem_append.1 he with he | he
  · exact hmid e he
  · exact hlast e he

theorem Steady.isClosed {c d : Connection τ} (h : Steady see c d) :
    d.isClosed = c.isClosed := by
  unfold Connection.isClosed
  rw [h.state]

theorem steady_emit {e : Event} (he : e.isEnd = false) (c : Connection τ) :
    Steady see c (c.emit e) :=
  { Steady.refl c with events := ⟨[e], rfl, by simpa using he⟩ }

theorem steady_sendLine (line : List Char) (c : Connection τ) :
    Steady see c (c.sendLine line) :=
  { Steady.refl c with }

theorem steady_sendValue (v : Value) (c : Connection τ) : Steady see c (c.sendValue v) := by
  rw [sendValue_eq]
  exact { Steady.refl c with }

theorem steady_sendValues (values : List Value) (c : Connection τ) :
    Steady see c (values.foldl (fun c v => c.sendValue v) c) := by
  induction values generalizing c with
  | nil => exact .refl c
  | cons v vs ih => exact (steady_sendValue v c).trans (ih _)

theorem steady_broadcastDirty (values : Registry) (c : Connection τ) :
    Steady see c (c.broadcastDirty values) := by
  unfold broadcastDirty
  split
  · exact steady_sendValues _ c
  · exact .refl c

theorem steady_pump (c : Connection τ) : Steady see c c.pump := by
  rcases performs_pump c with h | ⟨-, -, q, h⟩
  · rw [h]
    exact .refl c
  · generalize c.pump = d at h ⊢
    cases h with
    | start _ _ _ => exact { Steady.refl c with }

theorem steady_queueCommand (urgent : Bool) (command : Command) (c : Connection τ) :
    Steady see c (c.queueCommand urgent command).2 := by
  rcases performs_queueCommand urgent command c with
    ⟨e, h⟩ | ⟨e, d, hd, h⟩ | ⟨handle, d, hd, h⟩
  · rw [h]
    exact .refl c
  · rw [h]
    cases hd with
    | refuse _ => exact { Steady.refl c with }
  · rw [h]
    cases hd with
    | accept _ _ =>
      have haccept (queue : CommandQueue) : Steady see c { c with queue } := { Steady.refl c with }
      exact (haccept _).trans (steady_pump _)

/-! ## Records -/

theorem steady_replicate (name text : String) (c : Connection τ) :
    Steady see c (c.replicate name text).1 := by
  unfold replicate
  split
  · exact .refl c
  · split
    · exact { steady_emit (e := .valueChanged c.id name) rfl (c.putReplica name _) with }
    · exact .refl c

theorem steady_announce (code : UInt32) (name description : String) (c : Connection τ) :
    Steady see c (c.announce code name description).1 := by
  unfold announce
  split
  · exact { Steady.refl c with }
  · exact .refl c

theorem steady_announceSymbol (name symbol : String) (c : Connection τ) :
    Steady see c (c.announceSymbol name symbol) := by
  unfold announceSymbol
  split
  · exact .refl c
  · exact { Steady.refl c with }

theorem steady_receiveStatus (bits : UInt32) (c : Connection τ) :
    Steady see c (c.receiveStatus bits) := by
  unfold receiveStatus
  dsimp only
  split
  · exact .refl c
  · have hnew : Steady see c { c with status := ⟨bits⟩ } := { Steady.refl c with }
    exact hnew.trans (steady_emit rfl _)

theorem steady_receiveTechnical (text : String) (c : Connection τ) :
    Steady see c (c.receiveTechnical text) := by
  unfold receiveTechnical
  split
  · exact steady_sendLine _ c
  · exact .refl c

theorem steady_receiveSet (dev : Device σ) (name : String) (op : Operator) (text : String)
    (t : Turn τ σ) : Steady see t.conn (receiveSet dev name op text t).1.conn := by
  unfold receiveSet
  dsimp only
  split
  · exact steady_sendLine _ _
  · split
    · exact steady_sendLine _ _
    · split
      · exact steady_sendLine _ _
      · exact steady_sendLine _ _
      · split
        · exact steady_sendLine _ _
        · exact (steady_sendLine _ _).trans (steady_emit rfl _)

theorem steady_receiveInfo (dev : Device σ) (t : Turn τ σ) :
    Steady see t.conn (receiveInfo dev t).conn := by
  unfold receiveInfo
  dsimp only
  split
  · exact steady_sendLine _ _
  · exact (steady_sendValues _ _).trans (steady_sendLine _ _)

theorem steady_receiveCommand (dev : Device σ) (opcode params : String) (t : Turn τ σ) :
    Steady see t.conn (receiveCommand dev opcode params t).1.conn := by
  unfold receiveCommand
  split
  · exact steady_receiveInfo dev t
  · split
    · exact steady_receiveSet dev _ _ _ t
    · dsimp only
      split <;> exact steady_sendLine _ _

/-- **One record** that is no reply ends nothing. -/
theorem steady_dispatch (dev : Device σ) {r : Record} (hr : r.isReply = false)
    (t : Turn τ σ) : Steady see t.conn (dispatch dev r t).1.conn := by
  cases r with
  | value name text => exact steady_replicate name text t.conn
  | set name op text => exact steady_receiveSet dev name op text t
  | metaInfo code name description => exact steady_announce code name description t.conn
  | symbolInfo name symbol => exact steady_announceSymbol name symbol t.conn
  | status bits => exact steady_receiveStatus bits t.conn
  | blocking bits => exact { Steady.refl t.conn with }
  | message m => exact steady_emit rfl t.conn
  | technical text => exact steady_receiveTechnical text t.conn
  | reply code reason => cases hr
  | command opcode params => exact steady_receiveCommand dev opcode params t

/-! ## Dealings that may end the connection -/

/-- Dealings that keep the connection steady and then, perhaps, end it for one of the given
reasons. -/
def Runs (see : τ → α) (R : CloseReason → Prop) (c d : Connection τ) : Prop :=
  Steady see c d ∨
    ∃ e reason, Steady see c e ∧ e.isClosed = false ∧ R reason ∧ d = e.finishClose reason

variable {R S : CloseReason → Prop}

theorem Steady.runs {c d : Connection τ} (h : Steady see c d) : Runs see R c d := .inl h

theorem Steady.runs_finishClose {c d : Connection τ} (h : Steady see c d)
    (hopen : c.isClosed = false) {reason : CloseReason} (hreason : R reason) :
    Runs see R c (d.finishClose reason) :=
  .inr ⟨d, reason, h, h.isClosed.trans hopen, hreason, rfl⟩

theorem Runs.mono {c d : Connection τ} (h : Runs see R c d) (hRS : ∀ r, R r → S r) :
    Runs see S c d := by
  rcases h with h | ⟨e, reason, h, hopen, hreason, heq⟩
  · exact .inl h
  · exact .inr ⟨e, reason, h, hopen, hRS reason hreason, heq⟩

theorem Steady.trans_runs {c d e : Connection τ} (h : Steady see c d) (h' : Runs see R d e) :
    Runs see R c e := by
  rcases h' with h' | ⟨f, reason, h', hopen, hreason, heq⟩
  · exact .inl (h.trans h')
  · exact .inr ⟨f, reason, h.trans h', hopen, hreason, heq⟩

/-- An ended connection stays as it is, so what may follow is asked only of one that goes on. -/
theorem Runs.andThen {c d e : Connection τ} (h : Runs see R c d)
    (hgoes : d.isClosed = false → Runs see R d e) (hended : d.isClosed = true → e = d) :
    Runs see R c e := by
  cases hd : d.isClosed with
  | true =>
    rw [hended hd]
    exact h
  | false =>
    rcases h with h | ⟨f, reason, -, -, -, rfl⟩
    · exact h.trans_runs (hgoes hd)
    · cases hd

/-- What is changed of a connection beside its link, its state and its reports can be changed before
it is ended. -/
theorem Runs.adjust {c d : Connection τ} (h : Runs see R c d)
    (f : Connection τ → Connection τ) (hsteady : ∀ e, Steady see e (f e))
    (hend : ∀ e reason, f (e.finishClose reason) = (f e).finishClose reason) :
    Runs see R c (f d) := by
  rcases h with h | ⟨e, reason, h, hopen, hreason, rfl⟩
  · exact .inl (h.trans (hsteady d))
  · refine .inr ⟨f e, reason, h.trans (hsteady e), ?_, hreason, hend e reason⟩
    rw [(hsteady e).isClosed, hopen]

/-- The end is for what the peer sent. -/
def IsViolation (reason : CloseReason) : Prop := ∃ e, reason = .protocol e

theorem runs_countParseError {c : Connection τ} (hopen : c.isClosed = false) :
    Runs see IsViolation c c.countParseError := by
  have hcount : Steady see c { c with parseErrors := c.parseErrors + 1 } := { Steady.refl c with }
  rcases countParseError_cases c with h | h
  · rw [h]
    exact hcount.runs
  · rw [h]
    exact hcount.runs_finishClose hopen ⟨_, rfl⟩

theorem runs_receiveReply (code : Int32) (reason : String) {c : Connection τ}
    (hopen : c.isClosed = false) : Runs see IsViolation c (c.receiveReply code reason) := by
  have hqueue (queue : CommandQueue) : Steady see c { c with queue } := { Steady.refl c with }
  unfold receiveReply
  cases hflight : c.queue.inFlight with
  | none => exact (Steady.refl c).runs_finishClose hopen ⟨_, rfl⟩
  | some q =>
    simp only [Option.isNone_some, Bool.false_eq_true, if_false]
    split
    · exact (Steady.refl c).runs
    · split
      · exact (hqueue _).runs
      · split
        · exact ((hqueue _).trans ((steady_emit (by simp) _).trans (steady_pump _))).runs
        · exact ((hqueue _).trans (steady_pump _)).runs

/-- **One frame.** -/
theorem runs_processFrame (dev : Device σ) {t : Turn τ σ} (hopen : t.conn.isClosed = false)
    (frame : Framing.Frame) : Runs see IsViolation t.conn (processFrame dev t frame).conn := by
  have hreset (e : Connection τ) : Steady see e { e with parseErrors := 0 } :=
    { Steady.refl e with }
  have hhandled := handled_processFrame dev hopen frame
  generalize processFrame dev t frame = t', recordOf? frame = record at hhandled ⊢
  cases hhandled with
  | blank => exact (Steady.refl t.conn).runs
  | malformed => exact runs_countParseError hopen
  | @accepted r h =>
    have hrecord : Runs see IsViolation t.conn (dispatch dev r t).1.conn := by
      cases hr : r.isReply with
      | false => exact (steady_dispatch dev hr t).runs
      | true =>
        cases r with
        | reply code reason => exact runs_receiveReply code reason hopen
        | _ => cases hr
    exact hrecord.adjust (fun e => { e with parseErrors := 0 }) hreset fun e reason => rfl
  | @refused r e h =>
    cases hr : r.isReply with
    | false =>
      have hrecord : Steady see t.conn (dispatch dev r t).1.conn := steady_dispatch dev hr t
      exact hrecord.trans_runs (runs_countParseError (hrecord.isClosed.trans hopen))
    | true =>
      -- a reply is never complained about
      cases r with
      | reply code reason => cases h
      | _ => cases hr

theorem runs_frames (dev : Device σ) (frames : List Framing.Frame) {t : Turn τ σ}
    (hopen : t.conn.isClosed = false) :
    Runs see IsViolation t.conn (frames.foldl (processFrame dev) t).conn := by
  induction frames generalizing t with
  | nil => exact (Steady.refl t.conn).runs
  | cons frame frames ih =>
    refine (runs_processFrame dev hopen frame).andThen (fun hgoes => ih hgoes) fun hended => ?_
    rw [List.foldl_cons, foldl_processFrame_of_closed dev frames hended]

/-- **Bytes of the peer.** -/
theorem runs_receive (dev : Device σ) (now : Instant) (bytes : Bytes) (t : Turn τ σ) :
    Runs see IsViolation t.conn (receive dev now bytes t).conn := by
  rw [receive_eq]
  refine Runs.adjust ?_ (heard ⟨(t.conn.input.push bytes).2, now, none⟩) (fun e => ?_)
    fun e reason => rfl
  · cases hclosed : t.conn.isClosed with
    | true =>
      rw [foldl_processFrame_of_closed dev _ hclosed]
      exact (Steady.refl t.conn).runs
    | false => exact runs_frames dev _ hclosed
  · exact { Steady.refl e with }

/-! ## Reading -/

/-- The end is for what was read, or for what reading ran into. -/
def IsFoundReading : CloseReason → Prop
  | .requested => False
  | .timeout => False
  | _ => True

theorem IsViolation.isFoundReading {reason : CloseReason} (h : IsViolation reason) :
    IsFoundReading reason := by
  obtain ⟨e, rfl⟩ := h
  trivial

theorem runs_endOfInput {c : Connection τ} (hopen : c.isClosed = false) :
    Runs see IsFoundReading c c.endOfInput := by
  have hread : Steady see c { c with readClosed := true } := { Steady.refl c with }
  unfold endOfInput
  dsimp only
  split
  · split
    · exact hread.runs_finishClose hopen trivial
    · exact hread.runs
  · exact hread.runs_finishClose hopen trivial

theorem steady_link {c : Connection τ} {s s' : τ} (hlink : c.link = .stream s)
    (hsame : see s' = see s) : Steady see c { c with link := .stream s' } where
  id := rfl
  name := rfl
  state := rfl
  stream := by rw [hlink]; rfl
  timeout := rfl
  helper := rfl
  seen := by rw [seen_of_stream see hlink, seen_of_stream see rfl, hsame]
  events := ⟨[], by simp, by simp⟩

theorem isEstablished_of_wantsRead {c : Connection τ} (h : c.wantsRead = true) :
    c.isEstablished = true := by
  unfold wantsRead at h
  exact (Bool.and_eq_true_iff.1 h).1

theorem isClosed_of_isEstablished {c : Connection τ} (h : c.isEstablished = true) :
    c.isClosed = false := by
  unfold isEstablished at h
  unfold isClosed
  rw [beq_iff_eq.1 h]
  rfl

/-- Only an established connection reads, so nothing becomes of another. -/
theorem readFor_of_not_wantsRead (T : Transport τ) (dev : Device σ) (now : Instant)
    (readings : Nat) (moved : Bool) {t : Turn τ σ} (h : t.conn.wantsRead = false) :
    (readFor T dev now readings moved t).2 = t := by
  cases readings with
  | zero => rfl
  | succ readings =>
    unfold readFor
    rw [h]

/-- Reading goes on for as long as bytes are there, so the induction is on the readings left. -/
theorem runs_readFor {T : Transport τ} (hsee : ∀ limit s, see (T.read limit s).2 = see s)
    (dev : Device σ) (now : Instant) (readings : Nat) (moved : Bool) (t : Turn τ σ) :
    Runs see IsFoundReading t.conn (readFor T dev now readings moved t).2.conn := by
  induction readings generalizing moved t with
  | zero => exact (Steady.refl t.conn).runs
  | succ readings ih =>
    unfold readFor
    split
    · next s hwants hlink =>
      have hopen := isClosed_of_isEstablished (isEstablished_of_wantsRead hwants)
      have hread := steady_link hlink (hsee readChunk s)
      have hopen' := hread.isClosed.trans hopen
      dsimp only
      split
      · exact hread.runs
      · exact hread.runs
      · exact hread.trans_runs (runs_endOfInput hopen')
      · exact hread.runs_finishClose hopen trivial
      · exact hread.trans_runs (runs_endOfInput hopen')
      · next bytes _ _ =>
        have hreceive : Runs see IsViolation _ _ := runs_receive dev now bytes
          (t.onConn fun c => { c with link := .stream (T.read readChunk s).2 })
        refine hread.trans_runs ?_
        refine (hreceive.mono fun _ => IsViolation.isFoundReading).andThen (fun _ => ih true _) ?_
        intro hended
        rw [readFor_of_not_wantsRead]
        unfold isClosed at hended
        unfold wantsRead isEstablished
        rw [beq_iff_eq.1 hended]
        rfl
    · exact (Steady.refl t.conn).runs

theorem runs_readPass {T : Transport τ} (hsee : ∀ limit s, see (T.read limit s).2 = see s)
    (dev : Device σ) (now : Instant) (t : Turn τ σ) :
    Runs see IsFoundReading t.conn (readPass T dev now t).2.conn := by
  unfold readPass
  split
  · exact runs_readFor hsee dev now _ _ t
  · exact (Steady.refl t.conn).runs

/-- A pass leaves a connection alone that is not established. -/
theorem readPass_of_not_established (T : Transport τ) (dev : Device σ) (now : Instant)
    {t : Turn τ σ} (h : t.conn.isEstablished = false) : (readPass T dev now t).2 = t := by
  unfold readPass
  split
  · exact readFor_of_not_wantsRead T dev now _ _ (by rw [wantsRead, h]; rfl)
  · rfl

/-! ## Time and requests -/

theorem runs_idleEstablished (now : Instant) (c : Connection τ) :
    Runs see (· = .timeout) c (c.idleEstablished now) := by
  unfold idleEstablished
  split
  · next hup =>
    have hpump : Steady see c c.pump := steady_pump c
    have hopen := hpump.isClosed.trans (isClosed_of_isEstablished hup)
    dsimp only
    split
    · exact hpump.runs
    · next timeout _ =>
      have hask (due : Bool) : Steady see c.pump (if due = true then
          { c.pump.send (.technical "ready") with lastKeepalive := some now } else c.pump) := by
        cases due with
        | false => exact .refl c.pump
        | true => exact { steady_sendLine (Record.technical "ready").encode c.pump with }
      refine hpump.trans_runs ?_
      unfold watchSilence
      dsimp only
      split
      · exact (Steady.refl _).runs_finishClose hopen rfl
      · exact (hask _).runs
  · exact (Steady.refl c).runs

end Observatory.Connection
