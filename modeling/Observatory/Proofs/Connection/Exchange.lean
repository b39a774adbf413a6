import Observatory.Proofs.Command.Queue
import Observatory.Proofs.Connection.Answers
import Observatory.Proofs.Session.Safety
/-!
# What is written on a line

A connection that is left to its peer writes only when a line comes. A request gets its answer, and
a ping its pong; both provoke nothing on the other side. A reply gets no answer: it releases the
next command that waits, or nothing. So a connection can be made to send no more commands than wait
in its queue, and everything else that it writes is mute.

* `Record.IsMute` — what provokes nothing; `Record.IsMute.not_provoking` for its line.
* `Connection.due` — how many commands replies can still release.
* `Connection.exchanges` — lines, with what is written on them.
* `Connection.Exchanged` — what exchanges come down to; `exchanged_processFrame` for one of them.
-/

namespace Observatory

open Framing (Frame)

/-! ## Records that provoke -/

namespace Record

/-- Asks for a sign of life. -/
def isPing : Record → Bool
  | technical text => text == "ready"
  | _ => false

/-- Makes whoever reads it write something, beside a command. -/
def provokes (r : Record) : Bool := r.isRequest || r.isPing

/-- A record that a connection writes on a line of its peer, if it is no command. -/
def IsMute : Record → Prop
  | value _ text => Text.OneLine text.toList
  | technical text => text = "OK"
  | set _ _ _ => False
  | command _ _ => False
  | _ => True

theorem IsMute.isPlain {r : Record} (h : r.IsMute) : r.IsPlain := by
  cases r with
  | technical text =>
    obtain rfl := h
    exact (by decide : Text.OneLine "OK".toList)
  | value name text => exact h
  | set _ _ _ => exact h
  | command _ _ => exact h
  | _ => trivial

/-- **A mute record** is read as one that provokes nothing. -/
theorem IsMute.read {r : Record} (h : r.IsMute) :
    ∃ s, parseChars r.encode = .ok s ∧ s.provokes = false := by
  cases r with
  | technical text =>
    obtain rfl := h
    exact ⟨_, parseChars_technical_trim "OK", by decide⟩
  | value name text => exact ⟨_, parseChars_value_trim name text, rfl⟩
  | metaInfo code name description => exact ⟨_, parseChars_metaInfo code name description, rfl⟩
  | symbolInfo name symbol => exact ⟨_, parseChars_symbolInfo name symbol, rfl⟩
  | status bits => exact ⟨_, parseChars_status bits, rfl⟩
  | blocking bits => exact ⟨_, parseChars_blocking bits, rfl⟩
  | message m => exact ⟨_, parseChars_message m, rfl⟩
  | reply code reason => exact ⟨_, parseChars_reply code reason, rfl⟩
  | set _ _ _ => exact h.elim
  | command _ _ => exact h.elim

end Record

/-- The line would make whoever reads it write something, beside a command. -/
def isProvoking (line : Bytes) : Bool := (readLine line).any Record.provokes

/-- The same of a frame. -/
def Framing.Frame.isProvoking (frame : Frame) : Bool :=
  (Connection.recordOf? frame).any Record.provokes

theorem Record.IsMute.not_provoking {r : Record} (h : r.IsMute) :
    isProvoking (lineBytes r.encode) = false := by
  obtain ⟨s, hs, hprovokes⟩ := h.read
  unfold isProvoking
  rw [readLine_lineBytes h.isPlain.oneLine, hs]
  exact hprovokes

/-- A frame provokes only what its line does: a line that is too long is not read. -/
theorem isProvoking_of_frameOf (limit : Nat) (line : Bytes)
    (h : Framing.Frame.isProvoking (Framing.frameOf limit line) = true) :
    isProvoking line = true := by
  have hshort : (Framing.dropReturn line).length ≤ line.length := by
    unfold Framing.dropReturn
    split
    · rw [List.length_dropLast]
      exact Nat.sub_le _ _
    · exact Nat.le_refl _
  unfold Framing.Frame.isProvoking Framing.frameOf at h
  unfold isProvoking readLine Framing.frameOf
  dsimp only at h ⊢
  rw [if_neg (Nat.not_lt.2 hshort)]
  by_cases hlong : limit < (Framing.dropReturn line).length
  · rw [if_pos hlong] at h
    cases h
  · rw [if_neg hlong] at h
    exact h

namespace Connection

variable {τ σ : Type}

/-! ## Mute records -/

/-- Mute records go to the end of the output. -/
def Mutters (c d : Connection τ) : Prop :=
  ∃ records : List Record, d.output = c.output ++ recordBytes records ∧ ∀ r ∈ records, r.IsMute

theorem Mutters.of_same {c d : Connection τ} (h : d.output = c.output) : Mutters c d :=
  ⟨[], by simp [h], by simp⟩

theorem Mutters.trans {c d e : Connection τ} (h : Mutters c d) (h' : Mutters d e) :
    Mutters c e := by
  obtain ⟨rs, hrs, hmute⟩ := h
  obtain ⟨ss, hss, hmute'⟩ := h'
  refine ⟨rs ++ ss, by rw [hss, hrs, recordBytes_append, List.append_assoc], fun r hr => ?_⟩
  rcases List.mem_append.1 hr with hr | hr
  · exact hmute r hr
  · exact hmute' r hr

theorem mutters_sendReply (code : Int32) (reason : String) (c : Connection τ) :
    Mutters c (c.sendReply code reason) := by
  rw [sendReply, send_eq]
  exact ⟨[.reply code reason], rfl, by simp [Record.IsMute]⟩

theorem mutters_sendValue (v : Value) (c : Connection τ) : Mutters c (c.sendValue v) := by
  rw [sendValue_eq]
  refine ⟨v.pushRecords c.announced, rfl, fun r hr => ?_⟩
  unfold Value.pushRecords Value.metaRecords at hr
  rcases List.mem_append.1 hr with hr | hr
  · split at hr
    · cases hr
    · rcases List.mem_cons.1 hr with rfl | hr
      · trivial
      · split at hr
        · obtain ⟨symbol, -, rfl⟩ := List.mem_map.1 hr
          trivial
        · cases hr
  · rw [List.mem_singleton.1 hr]
    exact v.oneLine_text

theorem mutters_sendValues (values : List Value) (c : Connection τ) :
    Mutters c (values.foldl (fun c v => c.sendValue v) c) := by
  induction values generalizing c with
  | nil => exact .of_same rfl
  | cons v vs ih => exact (mutters_sendValue v c).trans (ih _)

theorem mutters_receiveSet (dev : Device σ) (name : String) (op : Operator) (text : String)
    (t : Turn τ σ) : Mutters t.conn (receiveSet dev name op text t).1.conn := by
  unfold receiveSet
  dsimp only
  split
  · exact mutters_sendReply _ _ _
  · split
    · exact mutters_sendReply _ _ _
    · split
      · exact mutters_sendReply _ _ _
      · exact mutters_sendReply _ _ _
      · split
        · exact mutters_sendReply _ _ _
        · exact (mutters_sendReply _ _ _).trans (.of_same rfl)

theorem mutters_receiveCommand (dev : Device σ) (opcode params : String) (t : Turn τ σ) :
    Mutters t.conn (receiveCommand dev opcode params t).1.conn := by
  unfold receiveCommand
  split
  · unfold receiveInfo
    dsimp only
    split
    · exact mutters_sendReply _ _ _
    · exact (mutters_sendValues _ _).trans (mutters_sendReply _ _ _)
  · split
    · exact mutters_receiveSet dev _ _ _ t
    · dsimp only
      split <;> exact mutters_sendReply _ _ _

/-! ## One record -/

/-- A record that is no reply and provokes nothing is not answered. -/
theorem output_dispatch (dev : Device σ) {r : Record} (hreply : r.isReply = false)
    (hquiet : r.provokes = false) (t : Turn τ σ) :
    (dispatch dev r t).1.conn.output = t.conn.output := by
  cases r with
  | value name text =>
    show (replicate name text t.conn).1.output = _
    unfold replicate
    split
    · rfl
    · split <;> rfl
  | metaInfo code name description =>
    show (announce code name description t.conn).1.output = _
    unfold announce
    split <;> rfl
  | symbolInfo name symbol =>
    show (announceSymbol name symbol t.conn).output = _
    unfold announceSymbol
    split <;> rfl
  | status bits =>
    show (receiveStatus bits t.conn).output = _
    unfold receiveStatus
    dsimp only
    split <;> rfl
  | blocking bits => rfl
  | message m => rfl
  | technical text =>
    have hother : text ≠ "ready" := by
      simpa [Record.provokes, Record.isRequest, Record.isPing] using hquiet
    show (receiveTechnical text t.conn).output = _
    unfold receiveTechnical
    rw [if_neg hother]
  | reply code reason => cases hreply
  | set name op text => cases hquiet
  | command opcode params => cases hquiet

/-- **A ping** is answered by a pong. -/
theorem output_dispatch_ping (dev : Device σ) {r : Record} (hping : r.isPing = true)
    (t : Turn τ σ) :
    (dispatch dev r t).1.conn.output = t.conn.output ++ recordBytes [.technical "OK"] := by
  cases r with
  | technical text =>
    obtain rfl : text = "ready" := by simpa [Record.isPing] using hping
    show (t.conn.send (.technical "OK")).output = _
    rw [send_eq]
  | _ => cases hping

/-- **A record that is no reply** makes a connection write mute records only. -/
theorem mutters_dispatch (dev : Device σ) {r : Record} (hreply : r.isReply = false)
    (t : Turn τ σ) : Mutters t.conn (dispatch dev r t).1.conn := by
  cases hprovokes : r.provokes with
  | false => exact .of_same (output_dispatch dev hreply hprovokes t)
  | true =>
    cases r with
    | technical text =>
      have hping : (Record.technical text).isPing = true := by
        simpa [Record.provokes, Record.isRequest] using hprovokes
      exact ⟨_, output_dispatch_ping dev hping t, by simp [Record.IsMute]⟩
    | set name op text => exact mutters_receiveSet dev name op text t
    | command opcode params => exact mutters_receiveCommand dev opcode params t
    | _ => simp [Record.provokes, Record.isRequest, Record.isPing] at hprovokes

/-! ## Commands that are due -/

/-- How many of the commands that wait can still be released by replies. The first reply that comes
while none is in flight closes the connection. -/
def due (c : Connection τ) : Nat :=
  if c.isEstablished && c.queue.inFlight.isSome then c.queue.waiting.length else 0

theorem due_le (c : Connection τ) : c.due ≤ c.queue.waiting.length := by
  unfold due
  split
  · exact Nat.le_refl _
  · exact Nat.zero_le _

theorem due_of_no_flight {c : Connection τ} (h : c.queue.inFlight = none) : c.due = 0 := by
  unfold due
  rw [h, Option.isSome_none, Bool.and_false, if_neg Bool.false_ne_true]

theorem due_congr {c d : Connection τ} (hstate : d.state = c.state) (hqueue : d.queue = c.queue) :
    d.due = c.due := by
  unfold due isEstablished
  rw [hstate, hqueue]

theorem ServesOrCloses.due {n : Nat} {c d : Connection τ} (h : ServesOrCloses n c d) :
    d.due ≤ c.due := by
  rcases h with h | ⟨e, reason, -, -, -, rfl⟩
  · exact Nat.le_of_eq (due_congr h.frame.1 h.frame.2.1)
  · exact Nat.zero_le _

/-- What a reply comes down to: nothing is written, or the next command, and then one is due
less. -/
structure Releases (c d : Connection τ) : Prop where
  input : d.input = c.input
  next : d.output = c.output ∧ d.due ≤ c.due ∨
    ∃ q ∈ c.queue.waiting.head?, d.output = c.output ++ (lineBytes q.command.encode ++ [lineFeed]) ∧
      d.due + 1 ≤ c.due

theorem Releases.of_silent {c d : Connection τ} (hinput : d.input = c.input)
    (houtput : d.output = c.output) (hdue : d.due ≤ c.due) : Releases c d :=
  ⟨hinput, .inl ⟨houtput, hdue⟩⟩

theorem Releases.adjust {c d e : Connection τ} (h : Releases c d) (hd : Does d .adjust e) :
    Releases c e := by
  cases hd with
  | adjust halike =>
    have hdue := due_congr halike.state halike.queue
    refine ⟨halike.input.trans h.input, ?_⟩
    rw [halike.output, hdue]
    exact h.next

theorem Performs.unappend {c e : Connection τ} {as bs : List Act} (h : Performs c (as ++ bs) e) :
    ∃ d, Performs c as d ∧ Performs d bs e := by
  induction as generalizing c with
  | nil => exact ⟨c, .nil, h⟩
  | cons a as ih =>
    obtain ⟨d, hd, h⟩ := h.uncons
    obtain ⟨f, hf, h⟩ := ih h
    exact ⟨f, .cons hd hf, h⟩

/-- The end of a command leaves none in flight. -/
theorem Does.complete_spec {c d : Connection τ} {q : Queued} {outcome : Outcome} {code : Int32}
    (h : Does c (.complete q outcome code) d) : c.queue.inFlight = some q ∧ d.input = c.input ∧
      d.output = c.output ∧ d.state = c.state ∧ d.queue.inFlight = none ∧
      d.queue.waiting = c.queue.waiting := by
  cases h with
  | complete hq hopen _ _ =>
    refine ⟨hq, rfl, rfl, rfl, ?_, ?_⟩
    · simp [emit, CommandQueue.complete_eq hq]
    · simp [emit, CommandQueue.complete_eq hq]

/-- The next command is sent behind one that has ended. -/
theorem releases_of_start {c d e : Connection τ} {q q' : Queued} {outcome : Outcome} {code : Int32}
    (hd : Does c (.complete q outcome code) d) (he : Does d (.start q') e) : Releases c e := by
  obtain ⟨hflight, hinput, houtput, hstate, -, hwaiting⟩ := hd.complete_spec
  cases he with
  | @start _ rest hup hnone hnext =>
    have hup' : c.isEstablished = true := by
      unfold isEstablished at hup ⊢
      rwa [hstate] at hup
    have hwaits : c.queue.waiting = q' :: rest := hwaiting.symm.trans hnext
    have hbefore : c.due = rest.length + 1 := by
      unfold due
      rw [hup', hflight, hwaits]
      rfl
    have hafter := due_le (sendLine q'.command.encode
      { d with queue.inFlight := some q', queue.waiting := rest })
    rw [sendLine_eq] at hafter ⊢
    refine ⟨hinput, .inr ⟨q', by rw [hwaits]; rfl, ?_, ?_⟩⟩
    · simp [houtput]
    · rw [hbefore]
      exact Nat.succ_le_succ hafter

/-- **A reply** releases one command at most. -/
theorem releases_of_replyActs {c e : Connection τ} {acts : List Act}
    (hacts : ReplyActs c.queue.inFlight acts) (h : Performs c (acts ++ [.adjust]) e) :
    Releases c e := by
  obtain ⟨d, h, hadjust⟩ := h.unappend
  obtain ⟨_, hadjust, hnil⟩ := hadjust.uncons
  cases hnil
  refine Releases.adjust ?_ hadjust
  generalize c.queue.inFlight = flight at hacts
  cases hacts with
  | unexpected =>
    obtain ⟨_, hclose, hnil⟩ := h.uncons
    cases hnil
    cases hclose with
    | close _ reason => exact .of_silent rfl rfl (Nat.zero_le _)
  | ignored _ =>
    cases h
    exact .of_silent rfl rfl (Nat.le_refl _)
  | requeued _ =>
    obtain ⟨_, hrequeue, hnil⟩ := h.uncons
    cases hnil
    cases hrequeue with
    | requeue hq _ hroom =>
      have hnone : (c.queue.requeue.2).inFlight = none := by
        simp [CommandQueue.requeue_eq hq hroom]
      refine .of_silent rfl rfl ?_
      rw [due_of_no_flight hnone]
      exact Nat.zero_le _
  | done _ outcome code =>
    obtain ⟨_, hcomplete, hnil⟩ := h.uncons
    cases hnil
    obtain ⟨-, hinput, houtput, -, hnone, -⟩ := hcomplete.complete_spec
    refine .of_silent hinput houtput ?_
    rw [due_of_no_flight hnone]
    exact Nat.zero_le _
  | next _ outcome code q' =>
    obtain ⟨_, hcomplete, h⟩ := h.uncons
    obtain ⟨_, hstart, hnil⟩ := h.uncons
    cases hnil
    exact releases_of_start hcomplete hstart

/-! ## One line -/

/-- A line that was handled: its frame, the commands that waited, and what was written on it. -/
structure Exchange where
  frame : Frame
  waiting : List Queued
  written : Bytes

namespace Exchange

/-- What the line was read as. -/
def record? (e : Exchange) : Option Record := recordOf? e.frame

def isReply (e : Exchange) : Bool := e.record?.any Record.isReply

/-- A command was written. -/
def releases (e : Exchange) : Bool := e.isReply && !e.written.isEmpty

/-- Pings and requests are answered by mute records, a reply releases the next command or nothing,
and everything else has nothing written on it. -/
structure Proper (e : Exchange) : Prop where
  ping : e.record?.any Record.isPing = true → e.written = recordBytes [.technical "OK"]
  quiet : e.isReply = false → e.record?.any Record.provokes = false → e.written = []
  reply : e.isReply = true → e.written = [] ∨
    ∃ q ∈ e.waiting.head?, e.written = lineBytes q.command.encode ++ [lineFeed]
  mute : e.isReply = false →
    ∃ records : List Record, e.written = recordBytes records ∧ ∀ r ∈ records, r.IsMute

end Exchange

/-- A frame that is handled. -/
def exchange (dev : Device σ) (t : Turn τ σ) (frame : Frame) : Exchange :=
  ⟨frame, t.conn.queue.waiting,
    (processFrame dev t frame).conn.output.drop t.conn.output.length⟩

/-- Several frames. A closed connection handles none. -/
def exchanges (dev : Device σ) : List Frame → Turn τ σ → List Exchange
  | [], _ => []
  | frame :: frames, t =>
    if t.conn.isClosed then []
    else exchange dev t frame :: exchanges dev frames (processFrame dev t frame)

/-- The lines that are handled when bytes arrive. -/
def answered (dev : Device σ) (now : Instant) (bytes : Bytes) (t : Turn τ σ) : List Exchange :=
  let (frames, input) := t.conn.input.push bytes
  exchanges dev frames
    (t.onConn fun c => { c with lastActivity := now, lastKeepalive := none, input })

/-- What lines make of a connection. -/
structure Exchanged (c : Connection τ) (log : List Exchange) (d : Connection τ) : Prop where
  input : d.input = c.input
  output : d.output = c.output ++ log.flatMap Exchange.written
  due : d.due + log.countP Exchange.releases ≤ c.due
  proper : ∀ e ∈ log, e.Proper

theorem Exchanged.refl (c : Connection τ) : Exchanged c [] c :=
  ⟨rfl, (List.append_nil _).symm, Nat.le_refl _, by simp⟩

theorem Exchanged.append {c d e : Connection τ} {as bs : List Exchange} (h : Exchanged c as d)
    (h' : Exchanged d bs e) : Exchanged c (as ++ bs) e := by
  refine ⟨h'.input.trans h.input, ?_, ?_, fun x hx => ?_⟩
  · rw [h'.output, h.output, List.flatMap_append, List.append_assoc]
  · have hfirst := h.due
    have hsecond := h'.due
    rw [List.countP_append]
    omega
  · rcases List.mem_append.1 hx with hx | hx
    · exact h.proper x hx
    · exact h'.proper x hx

/-- Everything but a malformed line that is one too many leaves the output to the record. -/
theorem output_processFrame_cases (dev : Device σ) {t : Turn τ σ}
    (hopen : t.conn.isClosed = false) (frame : Frame) :
    recordOf? frame = none ∧ (processFrame dev t frame).conn.output = t.conn.output ∨
      ∃ r, recordOf? frame = some r ∧
        (processFrame dev t frame).conn.output = (dispatch dev r t).1.conn.output := by
  have hhandled := handled_processFrame dev hopen frame
  generalize recordOf? frame = record, processFrame dev t frame = t' at hhandled ⊢
  cases hhandled with
  | blank => exact .inl ⟨rfl, rfl⟩
  | malformed => exact .inl ⟨rfl, output_countParseError t.conn⟩
  | accepted h => exact .inr ⟨_, rfl, rfl⟩
  | refused h => exact .inr ⟨_, rfl, output_countParseError _⟩

theorem written_exchange {dev : Device σ} {t : Turn τ σ} {frame : Frame} {more : Bytes}
    (h : (processFrame dev t frame).conn.output = t.conn.output ++ more) :
    (exchange dev t frame).written = more := by
  show (processFrame dev t frame).conn.output.drop _ = _
  rw [h, List.drop_left]

/-- What is written on a line that is no reply. -/
theorem proper_exchange (dev : Device σ) {t : Turn τ σ} {frame : Frame}
    (hopen : t.conn.isClosed = false) (hreply : (recordOf? frame).any Record.isReply = false) :
    (processFrame dev t frame).conn.output = t.conn.output ++ (exchange dev t frame).written ∧
      (exchange dev t frame).Proper := by
  have hno : (exchange dev t frame).isReply ≠ true := ne_true_of_eq_false hreply
  rcases output_processFrame_cases dev hopen frame with ⟨hnone, houtput⟩ | ⟨r, hr, houtput⟩
  · have hempty := written_exchange (houtput.trans (List.append_nil _).symm)
    refine ⟨by rw [hempty, houtput, List.append_nil], fun hping => ?_, fun _ _ => hempty,
      fun h => absurd h hno, fun _ => ⟨[], hempty, by simp⟩⟩
    have hping' : (recordOf? frame).any Record.isPing = true := hping
    rw [hnone] at hping'
    cases hping'
  · have hr' : r.isReply = false := by
      rw [hr] at hreply
      exact hreply
    obtain ⟨records, hrecords, hmute⟩ := mutters_dispatch dev hr' t
    have hmuttered := written_exchange (houtput.trans hrecords)
    refine ⟨by rw [hmuttered, houtput, hrecords], fun hping => ?_, fun _ hquiet => ?_,
      fun h => absurd h hno, fun _ => ⟨records, hmuttered, hmute⟩⟩
    · have hping' : (recordOf? frame).any Record.isPing = true := hping
      rw [hr] at hping'
      exact written_exchange (houtput.trans (output_dispatch_ping dev hping' t))
    · have hquiet' : (recordOf? frame).any Record.provokes = false := hquiet
      rw [hr] at hquiet'
      refine written_exchange (houtput.trans ?_)
      rw [output_dispatch dev hr' hquiet', List.append_nil]

/-- One line that is a reply. -/
theorem exchanged_processFrame_reply (dev : Device σ) {t : Turn τ σ} {frame : Frame}
    (hopen : t.conn.isClosed = false) {r : Record} (hr : recordOf? frame = some r)
    (hreply : r.isReply = true) :
    Exchanged t.conn [exchange dev t frame] (processFrame dev t frame).conn := by
  obtain ⟨acts, hacts, hperforms⟩ := performs_processFrame_reply dev hopen hr hreply
  have hreleases := releases_of_replyActs hacts hperforms
  have hyes : (exchange dev t frame).isReply = true := by
    show (recordOf? frame).any Record.isReply = true
    rw [hr]
    exact hreply
  have hping : (exchange dev t frame).record?.any Record.isPing ≠ true := by
    show (recordOf? frame).any Record.isPing ≠ true
    rw [hr]
    cases r with
    | reply code reason => exact Bool.false_ne_true
    | _ => cases hreply
  have hproper (h : (exchange dev t frame).written = [] ∨ ∃ q ∈ t.conn.queue.waiting.head?,
      (exchange dev t frame).written = lineBytes q.command.encode ++ [lineFeed]) :
      (exchange dev t frame).Proper :=
    ⟨fun hp => absurd hp hping, fun hno => absurd hyes (ne_true_of_eq_false hno), fun _ => h,
      fun hno => absurd hyes (ne_true_of_eq_false hno)⟩
  rcases hreleases.next with ⟨houtput, hdue⟩ | ⟨q, hq, houtput, hdue⟩
  · have hempty := written_exchange (houtput.trans (List.append_nil _).symm)
    refine ⟨hreleases.input, by simp [hempty, houtput], ?_, ?_⟩
    · rw [List.countP_singleton, Exchange.releases, hempty]
      simpa using hdue
    · rw [List.forall_mem_singleton]
      exact hproper (.inl hempty)
  · have hline := written_exchange houtput
    refine ⟨hreleases.input, by simp [hline, houtput], ?_, ?_⟩
    · rw [List.countP_singleton, Exchange.releases, hline, hyes]
      simpa using hdue
    · rw [List.forall_mem_singleton]
      exact hproper (.inr ⟨q, hq, hline⟩)

/-- **One line.** -/
theorem exchanged_processFrame (dev : Device σ) {t : Turn τ σ} (frame : Frame)
    (hopen : t.conn.isClosed = false) :
    Exchanged t.conn [exchange dev t frame] (processFrame dev t frame).conn := by
  cases hreply : (recordOf? frame).any Record.isReply with
  | false =>
    have hno (r : Record) (hr : recordOf? frame = some r) : r.isReply = false := by
      rw [hr] at hreply
      exact hreply
    have hserves := serves_processFrame dev hopen hno
    obtain ⟨houtput, hproper⟩ := proper_exchange dev hopen hreply
    have hnone : (exchange dev t frame).releases = false := by
      show ((recordOf? frame).any Record.isReply && _) = false
      rw [hreply, Bool.false_and]
    refine ⟨hserves.input, by simpa using houtput, ?_, by simpa using hproper⟩
    rw [List.countP_singleton, hnone]
    exact hserves.due
  | true =>
    obtain ⟨r, hr, hisReply⟩ : ∃ r, recordOf? frame = some r ∧ r.isReply = true := by
      simpa [Option.any_eq_true] using hreply
    exact exchanged_processFrame_reply dev hopen hr hisReply

/-- **Several lines.** -/
theorem exchanged_frames (dev : Device σ) (frames : List Frame) (t : Turn τ σ) :
    Exchanged t.conn (exchanges dev frames t) (frames.foldl (processFrame dev) t).conn := by
  induction frames generalizing t with
  | nil => exact .refl t.conn
  | cons frame frames ih =>
    unfold exchanges
    cases hopen : t.conn.isClosed with
    | true =>
      rw [foldl_processFrame_of_closed dev _ hopen, if_pos rfl]
      exact .refl t.conn
    | false =>
      rw [if_neg Bool.false_ne_true, List.foldl_cons]
      exact (exchanged_processFrame dev frame hopen).append (ih _)

/-- **A chunk.** -/
theorem exchanged_receive (dev : Device σ) (now : Instant) (bytes : Bytes) (t : Turn τ σ) :
    Exchanged
      { t.conn with
        lastActivity := now, lastKeepalive := none, input := (t.conn.input.push bytes).2 }
      (answered dev now bytes t) (receive dev now bytes t).conn :=
  exchanged_frames dev (t.conn.input.push bytes).1 (t.onConn fun c =>
    { c with lastActivity := now, lastKeepalive := none, input := (c.input.push bytes).2 })

theorem frame_mem_of_mem_exchanges {dev : Device σ} {frames : List Frame} {t : Turn τ σ}
    {e : Exchange} (he : e ∈ exchanges dev frames t) : e.frame ∈ frames := by
  induction frames generalizing t with
  | nil => cases he
  | cons frame frames ih =>
    unfold exchanges at he
    split at he
    · cases he
    · rcases List.mem_cons.1 he with rfl | he
      · exact List.mem_cons_self
      · exact List.mem_cons_of_mem _ (ih he)

end Connection

end Observatory
