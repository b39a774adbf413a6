import Observatory.Connection.Dispatch
import Observatory.Connection.Idle
import Observatory.Connection.Passes
import Observatory.Proofs.Connection.Output
import Observatory.Proofs.Record.RoundTrip
/-!
# Acts of a connection

Everything a connection does is a sequence of a few acts: it writes a record or an answer, starts,
ends or puts back a command, reports something, or closes. What is true of every act is true of
everything a connection does, so each property of whole runs is proved act by act.

* `Does` — what one act makes of a connection, and when it is possible.
* `Performs` — a sequence of acts.
* `Handled`, `handled_processFrame` — what becomes of a frame, by the record that it is read as.
-/

namespace Observatory

/-- A record that a connection writes on its own, beside values and answers. -/
def Record.IsNews : Record → Prop
  | .status _ => True
  | .blocking _ => True
  | .message _ => True
  | .technical text => Text.OneLine text.toList
  | _ => False

namespace Event

/-- An event that says nothing about commands and nothing about the end. -/
def isNote : Event → Bool
  | commandOk _ => false
  | commandFailed _ => false
  | connectionClosed _ _ _ => false
  | _ => true

/-- The report on a command that an event makes. -/
def completion? : Event → Option Completion
  | commandOk c => some c
  | commandFailed c => some c
  | _ => none

/-- Whether an event is the end of a connection. -/
def isEnd : Event → Bool
  | connectionClosed _ _ _ => true
  | _ => false

theorem isEnd_of_isNote {e : Event} (h : e.isNote = true) : e.isEnd = false := by
  cases e <;> first | rfl | simp [isNote] at h

theorem completion?_of_isNote {e : Event} (h : e.isNote = true) : e.completion? = none := by
  cases e <;> first | rfl | simp [isNote] at h

end Event

@[simp] theorem Completion.completion?_event (c : Completion) : c.event.completion? = some c := by
  unfold Completion.event
  split <;> rfl

@[simp] theorem Completion.isEnd_event (c : Completion) : c.event.isEnd = false := by
  unfold Completion.event
  split <;> rfl

/-- What a connection does at once. -/
inductive Act where
  /-- Pushes a value, announced first where that is needed. -/
  | push (v : Value)
  /-- Writes news. -/
  | tell (r : Record)
  /-- Answers a request. -/
  | answer (code : Int32) (reason : String)
  /-- Reports something that is about no command. -/
  | note (e : Event)
  /-- Takes a command into the queue. -/
  | accept (urgent : Bool) (q : Queued)
  /-- Turns a command away because the queue is full. -/
  | refuse
  /-- Sends the first waiting command. -/
  | start (q : Queued)
  /-- Ends the command in flight. -/
  | complete (q : Queued) (outcome : Outcome) (code : Int32)
  /-- Puts the command in flight back in front. -/
  | requeue (q : Queued)
  /-- The connect came to its end. -/
  | connect
  /-- Stays only until the output is flushed. -/
  | drain
  | close (reason : CloseReason)
  /-- Gives some of the output away. -/
  | flush (count : Nat)
  /-- Notes the arrival of bytes. -/
  | arrive
  /-- Changes nothing of all that. -/
  | adjust

namespace Act

/-- Acts that leave the queue as it is and close nothing. -/
def isQuiet : Act → Bool
  | push _ => true
  | tell _ => true
  | answer _ _ => true
  | note _ => true
  | adjust => true
  | _ => false

/-- Quiet acts that write neither a value nor an answer. -/
def isSilent : Act → Bool
  | tell _ => true
  | note _ => true
  | adjust => true
  | _ => false

def isAnswer : Act → Bool
  | answer _ _ => true
  | _ => false

/-- Acts that no owner has to ask for. -/
def isOwn : Act → Bool
  | accept _ _ => false
  | refuse => false
  | _ => true

theorem isQuiet_of_isSilent {a : Act} (h : a.isSilent = true) :
    a.isQuiet = true ∧ a.isAnswer = false := by
  cases a <;> first | exact ⟨rfl, rfl⟩ | simp [isSilent] at h

theorem isOwn_of_isQuiet {a : Act} (h : a.isQuiet = true) : a.isOwn = true := by
  cases a <;> first | rfl | simp [isQuiet] at h

end Act

namespace Connection

variable {τ σ : Type}

/-! ## One act -/

/-- Connections that differ only in what they know of their peer and in their timers. -/
structure Alike (c c' : Connection τ) : Prop where
  id : c'.id = c.id
  name : c'.name = c.name
  kind : c'.kind = c.kind
  state : c'.state = c.state
  link : c'.link = c.link ∨ c.link.isStream = true ∧ c'.link.isStream = true
  input : c'.input = c.input
  output : c'.output = c.output
  queue : c'.queue = c.queue
  announced : c'.announced = c.announced
  events : c'.events = c.events
  helper : c.helper = none → c'.helper = none

theorem Alike.refl (c : Connection τ) : Alike c c :=
  ⟨rfl, rfl, rfl, rfl, .inl rfl, rfl, rfl, rfl, rfl, rfl, fun h => h⟩

/-- What an act makes of a connection that can do it. -/
inductive Does : Connection τ → Act → Connection τ → Prop
  | push {c : Connection τ} (v : Value) : Does c (.push v) (c.sendValue v)
  | tell {c : Connection τ} {r : Record} (hr : r.IsNews) : Does c (.tell r) (c.send r)
  | answer {c : Connection τ} (code : Int32) (reason : String) :
    Does c (.answer code reason) (c.sendReply code reason)
  | note {c : Connection τ} {e : Event} (he : e.isNote = true) (hopen : c.isClosed = false) :
    Does c (.note e) (c.emit e)
  | accept {c : Connection τ} {urgent : Bool} {command : Command} {handle : CommandHandle}
    {queue : CommandQueue} (hopen : c.isClosed = false)
    (h : c.queue.insert urgent command = (some handle, queue)) :
    Does c (.accept urgent ⟨handle, command⟩) { c with queue }
  | refuse {c : Connection τ} (hopen : c.isClosed = false) :
    Does c .refuse { c with queue.lastSequence := c.queue.lastSequence + 1 }
  | start {c : Connection τ} {q : Queued} {rest : List Queued} (hup : c.isEstablished = true)
    (hnone : c.queue.inFlight = none) (hwaiting : c.queue.waiting = q :: rest) :
    Does c (.start q) (Connection.sendLine q.command.encode
      { c with queue.inFlight := some q, queue.waiting := rest })
  | complete {c : Connection τ} {q : Queued} (hq : c.queue.inFlight = some q)
    (hopen : c.isClosed = false) (outcome : Outcome) (code : Int32) :
    Does c (.complete q outcome code)
      (Connection.emit (q.complete outcome code).event
        { c with queue := (c.queue.complete outcome code).2 })
  | requeue {c : Connection τ} {q : Queued} (hq : c.queue.inFlight = some q)
    (hopen : c.isClosed = false) (hroom : c.queue.isFull = false) :
    Does c (.requeue q) { c with queue := c.queue.requeue.2 }
  | connect {c c' : Connection τ} {address : String} (hlink : c.link = .connecting address)
    {stream : τ} {now : Instant}
    (h : c' = { c with link := .stream stream, state := .established, lastActivity := now }) :
    Does c .connect c'
  | drain {c : Connection τ} (hopen : c.isClosed = false) (hlink : c.link.isStream = true) :
    Does c .drain { c with state := .draining }
  | close {c : Connection τ} (hopen : c.isClosed = false) (reason : CloseReason) :
    Does c (.close reason) (c.finishClose reason)
  | flush {c : Connection τ} (count : Nat) :
    Does c (.flush count) { c with output := c.output.drop count }
  | arrive {c : Connection τ} (now : Instant) (input : Framing) :
    Does c .arrive { c with lastActivity := now, lastKeepalive := none, input }
  | adjust {c c' : Connection τ} (h : Alike c c') : Does c .adjust c'

/-! ## Sequences of acts -/

/-- What a sequence of acts makes of a connection. -/
inductive Performs : Connection τ → List Act → Connection τ → Prop
  | nil {c : Connection τ} : Performs c [] c
  | cons {c d e : Connection τ} {a : Act} {acts : List Act} (h : Does c a d)
    (ht : Performs d acts e) : Performs c (a :: acts) e

theorem Does.performs {c d : Connection τ} {a : Act} (h : Does c a d) : Performs c [a] d :=
  .cons h .nil

theorem Performs.append {c d e : Connection τ} {as bs : List Act} (h : Performs c as d)
    (ht : Performs d bs e) : Performs c (as ++ bs) e := by
  induction h with
  | nil => exact ht
  | cons hd _ ih => exact .cons hd (ih ht)

theorem Performs.uncons {c e : Connection τ} {a : Act} {acts : List Act}
    (h : Performs c (a :: acts) e) : ∃ d, Does c a d ∧ Performs d acts e := by
  cases h with
  | cons hd ht => exact ⟨_, hd, ht⟩

theorem Performs.concat {c d e : Connection τ} {as : List Act} {a : Act} (h : Performs c as d)
    (ht : Does d a e) : Performs c (as ++ [a]) e := h.append ht.performs

/-- What holds of a connection and is kept by every act of a sequence holds afterwards. -/
theorem Performs.induct {P : Connection τ → Prop} {c d : Connection τ} {acts : List Act}
    (h : Performs c acts d) (hstep : ∀ a ∈ acts, ∀ x y, Does x a y → P x → P y) (hc : P c) :
    P d := by
  induction h with
  | nil => exact hc
  | cons hd _ ih =>
    exact ih (fun a ha => hstep a (List.mem_cons_of_mem _ ha))
      (hstep _ List.mem_cons_self _ _ hd hc)

/-! ## Commands -/

/-- Sending the next command is one act or none. -/
theorem performs_pump (c : Connection τ) :
    c.pump = c ∨ c.queue.inFlight = none ∧ c.isEstablished = true ∧
      ∃ q, Does c (.start q) c.pump := by
  unfold pump
  by_cases hup : c.isEstablished = true
  · rw [if_pos hup]
    cases hflight : c.queue.inFlight with
    | some q => left; simp only [CommandQueue.startNext, hflight]
    | none =>
      cases hwaiting : c.queue.waiting with
      | nil => left; simp only [CommandQueue.startNext, hflight, hwaiting]
      | cons q rest =>
        right
        simp only [CommandQueue.startNext, hflight, hwaiting]
        exact ⟨trivial, hup, q, .start hup hflight hwaiting⟩
  · left
    rw [if_neg hup]

theorem pump_state (c : Connection τ) : c.pump.state = c.state := by
  unfold pump
  dsimp only
  split
  · split <;> rfl
  · rfl

theorem pump_events (c : Connection τ) : c.pump.events = c.events := by
  unfold pump
  dsimp only
  split
  · split <;> rfl
  · rfl

/-! ## Replies -/

/-- What a reply leads to, by the command in flight. -/
inductive ReplyActs : Option Queued → List Act → Prop
  | unexpected : ReplyActs none [.close (.protocol .unexpectedReply)]
  | ignored (q : Queued) : ReplyActs (some q) []
  | requeued (q : Queued) : ReplyActs (some q) [.requeue q]
  | done (q : Queued) (outcome : Outcome) (code : Int32) :
    ReplyActs (some q) [.complete q outcome code]
  | next (q : Queued) (outcome : Outcome) (code : Int32) (q' : Queued) :
    ReplyActs (some q) [.complete q outcome code, .start q']

theorem performs_receiveReply (code : Int32) (reason : String) {c : Connection τ}
    (hopen : c.isClosed = false) : ∃ acts, ReplyActs c.queue.inFlight acts ∧
      Performs c acts (c.receiveReply code reason) := by
  unfold receiveReply
  cases hq : c.queue.inFlight with
  | none => exact ⟨_, .unexpected, (Does.close hopen _).performs⟩
  | some q =>
    simp only [Option.isNone_some, Bool.false_eq_true, if_false]
    by_cases hqueued : code = codeQueued
    · rw [if_pos hqueued]
      exact ⟨_, .ignored q, .nil⟩
    · rw [if_neg hqueued]
      by_cases hrequeue : code = codeRequeue
      · rw [if_pos hrequeue]
        by_cases hfull : c.queue.isFull = true
        · refine ⟨_, .ignored q, ?_⟩
          have hsame : c.queue.requeue.2 = c.queue := by
            simp only [CommandQueue.requeue, hq, if_pos hfull]
          rw [hsame]
          exact .nil
        · exact ⟨_, .requeued q, (Does.requeue hq hopen (by simpa using hfull)).performs⟩
      · rw [if_neg hrequeue]
        generalize (if 0 ≤ code then Outcome.ok else Outcome.failed reason) = outcome
        have hcompletion : (c.queue.complete outcome code).1 = some (q.complete outcome code) := by
          simp only [CommandQueue.complete, hq, CommandQueue.finish]
        simp only [hcompletion]
        have hdone := (Does.complete hq hopen outcome code).performs
        rcases performs_pump (Connection.emit (q.complete outcome code).event
          { c with queue := (c.queue.complete outcome code).2 }) with h | ⟨-, -, q', h⟩
        · refine ⟨_, .done q outcome code, ?_⟩
          rw [h]
          exact hdone
        · exact ⟨_, .next q outcome code q', hdone.concat h⟩

/-! ## Requests and news -/

/-- Silent acts. -/
def Murmurs (c d : Connection τ) : Prop :=
  ∃ acts, Performs c acts d ∧ ∀ a ∈ acts, a.isSilent = true

theorem Murmurs.refl (c : Connection τ) : Murmurs c c := ⟨[], .nil, by simp⟩

theorem Murmurs.trans {c d e : Connection τ} (h : Murmurs c d) (h' : Murmurs d e) :
    Murmurs c e := by
  obtain ⟨as, has, hsilent⟩ := h
  obtain ⟨bs, hbs, hsilent'⟩ := h'
  refine ⟨as ++ bs, has.append hbs, fun a ha => ?_⟩
  rcases List.mem_append.1 ha with ha | ha
  · exact hsilent a ha
  · exact hsilent' a ha

theorem Does.murmurs {a : Act} {c d : Connection τ} (h : Does c a d) (hsilent : a.isSilent = true) :
    Murmurs c d :=
  ⟨[a], h.performs, by simpa using hsilent⟩

theorem murmurs_adjust {c d : Connection τ} (h : Alike c d) : Murmurs c d :=
  (Does.adjust h).murmurs rfl

theorem murmurs_note {c : Connection τ} {e : Event} (he : e.isNote = true)
    (hopen : c.isClosed = false) : Murmurs c (c.emit e) :=
  (Does.note he hopen).murmurs rfl

theorem murmurs_tell {c : Connection τ} {r : Record} (hr : r.IsNews) : Murmurs c (c.send r) :=
  (Does.tell hr).murmurs rfl

theorem murmurs_replicate (name text : String) {c : Connection τ} (hopen : c.isClosed = false) :
    Murmurs c (c.replicate name text).1 := by
  unfold replicate
  split
  · exact .refl c
  · split
    · exact (murmurs_adjust (d := c.putReplica name _) { Alike.refl c with }).trans
        (murmurs_note rfl hopen)
    · exact .refl c

theorem murmurs_announce (code : UInt32) (name description : String) (c : Connection τ) :
    Murmurs c (c.announce code name description).1 := by
  unfold announce
  split
  · exact murmurs_adjust { Alike.refl c with }
  · exact .refl c

theorem murmurs_announceSymbol (name symbol : String) (c : Connection τ) :
    Murmurs c (c.announceSymbol name symbol) := by
  unfold announceSymbol
  split
  · exact .refl c
  · exact murmurs_adjust { Alike.refl c with }

theorem murmurs_receiveStatus (bits : UInt32) {c : Connection τ} (hopen : c.isClosed = false) :
    Murmurs c (c.receiveStatus bits) := by
  unfold receiveStatus
  dsimp only
  split
  · exact .refl c
  · exact (murmurs_adjust (d := { c with status := ⟨bits⟩ }) { Alike.refl c with }).trans
      (murmurs_note rfl hopen)

theorem murmurs_receiveTechnical (text : String) (c : Connection τ) :
    Murmurs c (c.receiveTechnical text) := by
  unfold receiveTechnical
  split
  · exact murmurs_tell (r := .technical "OK") (by decide : Text.OneLine "OK".toList)
  · exact .refl c

/-- **One record** that is neither a reply nor a request changes nothing of the endpoint. -/
theorem murmurs_dispatch (dev : Device σ) {r : Record} (hreply : r.isReply = false)
    (hrequest : r.isRequest = false) {t : Turn τ σ} (hopen : t.conn.isClosed = false) :
    Murmurs t.conn (dispatch dev r t).1.conn ∧ (dispatch dev r t).1.own = t.own := by
  cases r with
  | value name text => exact ⟨murmurs_replicate name text hopen, rfl⟩
  | metaInfo code name description => exact ⟨murmurs_announce code name description t.conn, rfl⟩
  | symbolInfo name symbol => exact ⟨murmurs_announceSymbol name symbol t.conn, rfl⟩
  | status bits => exact ⟨murmurs_receiveStatus bits hopen, rfl⟩
  | blocking bits => exact ⟨murmurs_adjust { Alike.refl t.conn with }, rfl⟩
  | message m => exact ⟨murmurs_note rfl hopen, rfl⟩
  | technical text => exact ⟨murmurs_receiveTechnical text t.conn, rfl⟩
  | reply code reason => exact absurd hreply (by simp [Record.isReply])
  | set name op text => exact absurd hrequest (by simp [Record.isRequest])
  | command opcode params => exact absurd hrequest (by simp [Record.isRequest])

/-- Quiet acts, with so many answers among them. -/
def Serves (answers : Nat) (c d : Connection τ) : Prop :=
  ∃ acts, Performs c acts d ∧ (∀ a ∈ acts, a.isQuiet = true) ∧ acts.countP Act.isAnswer = answers

theorem Serves.refl (c : Connection τ) : Serves 0 c c := ⟨[], .nil, by simp, rfl⟩

theorem Serves.trans {m n : Nat} {c d e : Connection τ} (h : Serves m c d) (h' : Serves n d e) :
    Serves (m + n) c e := by
  obtain ⟨as, has, hquiet, hcount⟩ := h
  obtain ⟨bs, hbs, hquiet', hcount'⟩ := h'
  refine ⟨as ++ bs, has.append hbs, fun a ha => ?_, by rw [List.countP_append, hcount, hcount']⟩
  rcases List.mem_append.1 ha with ha | ha
  · exact hquiet a ha
  · exact hquiet' a ha

theorem Murmurs.serves {c d : Connection τ} (h : Murmurs c d) : Serves 0 c d := by
  obtain ⟨acts, h, hsilent⟩ := h
  refine ⟨acts, h, fun a ha => (Act.isQuiet_of_isSilent (hsilent a ha)).1, ?_⟩
  rw [List.countP_eq_zero]
  intro a ha
  simp [(Act.isQuiet_of_isSilent (hsilent a ha)).2]

theorem Does.serves {a : Act} {c d : Connection τ} (h : Does c a d) (hquiet : a.isQuiet = true) :
    Serves (if a.isAnswer then 1 else 0) c d :=
  ⟨[a], h.performs, by simpa using hquiet, by rw [List.countP_singleton]⟩

theorem serves_adjust {c d : Connection τ} (h : Alike c d) : Serves 0 c d :=
  (murmurs_adjust h).serves

theorem serves_note {c : Connection τ} {e : Event} (he : e.isNote = true)
    (hopen : c.isClosed = false) : Serves 0 c (c.emit e) :=
  (murmurs_note he hopen).serves

theorem serves_tell {c : Connection τ} {r : Record} (hr : r.IsNews) : Serves 0 c (c.send r) :=
  (murmurs_tell hr).serves

theorem serves_answer (code : Int32) (reason : String) (c : Connection τ) :
    Serves 1 c (c.sendReply code reason) :=
  (Does.answer code reason).serves rfl

theorem serves_sendValues (values : List Value) (c : Connection τ) :
    Serves 0 c (values.foldl (fun c v => c.sendValue v) c) := by
  induction values generalizing c with
  | nil => exact .refl c
  | cons v vs ih => exact ((Does.push v).serves rfl).trans (ih _)

/-- A request to change a value is answered once. -/
theorem serves_receiveSet (dev : Device σ) (name : String) (op : Operator) (text : String)
    {t : Turn τ σ} (hopen : t.conn.isClosed = false) :
    Serves 1 t.conn (receiveSet dev name op text t).1.conn := by
  unfold receiveSet
  dsimp only
  split
  · exact serves_answer _ _ _
  · split
    · exact serves_answer _ _ _
    · split
      · exact serves_answer _ _ _
      · exact serves_answer _ _ _
      · split
        · exact serves_answer _ _ _
        · exact (serves_answer _ _ _).trans (serves_note rfl hopen)

theorem serves_receiveInfo (dev : Device σ) (t : Turn τ σ) :
    Serves 1 t.conn (receiveInfo dev t).conn := by
  unfold receiveInfo
  dsimp only
  split
  · exact serves_answer _ _ _
  · exact (serves_sendValues _ _).trans (serves_answer _ _ _)

/-- A command is answered once. -/
theorem serves_receiveCommand (dev : Device σ) (opcode params : String) {t : Turn τ σ}
    (hopen : t.conn.isClosed = false) :
    Serves 1 t.conn (receiveCommand dev opcode params t).1.conn := by
  unfold receiveCommand
  split
  · exact serves_receiveInfo dev t
  · split
    · exact serves_receiveSet dev _ _ _ hopen
    · dsimp only
      split <;> exact serves_answer _ _ _

/-- **One record.** A record that is no reply leaves the queue alone, and it is answered exactly
once when it is a request. -/
theorem serves_dispatch (dev : Device σ) {r : Record} (hr : r.isReply = false) {t : Turn τ σ}
    (hopen : t.conn.isClosed = false) :
    Serves (if r.isRequest then 1 else 0) t.conn (dispatch dev r t).1.conn := by
  cases hrequest : r.isRequest with
  | false => exact (murmurs_dispatch dev hr hrequest hopen).1.serves
  | true =>
    cases r with
    | set name op text => exact serves_receiveSet dev name op text hopen
    | command opcode params => exact serves_receiveCommand dev opcode params hopen
    | _ => simp [Record.isRequest] at hrequest

/-- A connection that only served is as open as before, with the same commands, and has taken
nothing more of its peer. -/
theorem Serves.frame {n : Nat} {c d : Connection τ} (h : Serves n c d) :
    d.state = c.state ∧ d.queue = c.queue ∧ d.input = c.input := by
  obtain ⟨acts, h, hquiet, -⟩ := h
  refine h.induct (P := fun x => x.state = c.state ∧ x.queue = c.queue ∧ x.input = c.input) ?_
    ⟨rfl, rfl, rfl⟩
  rintro a ha x y hd ⟨hstate, hqueue, hinput⟩
  have hq := hquiet a ha
  cases hd with
  | push v => rw [sendValue_eq]; exact ⟨hstate, hqueue, hinput⟩
  | tell _ => exact ⟨hstate, hqueue, hinput⟩
  | answer _ _ => exact ⟨hstate, hqueue, hinput⟩
  | note _ _ => exact ⟨hstate, hqueue, hinput⟩
  | adjust h => exact ⟨h.state.trans hstate, h.queue.trans hqueue, h.input.trans hinput⟩
  | _ => simp [Act.isQuiet] at hq

theorem Serves.isClosed {n : Nat} {c d : Connection τ} (h : Serves n c d) :
    d.isClosed = c.isClosed := by
  unfold Connection.isClosed
  rw [h.frame.1]

/-! ## Lines -/

/-- The record that a frame is read as, if it is one. -/
def recordOf? (frame : Framing.Frame) : Option Record :=
  match frame with
  | .ok line => (Record.parse line).toOption
  | .error _ => none

/-- Serving, and then perhaps the end, for another reason than a reply that nobody asked for. -/
def ServesOrCloses (answers : Nat) (c d : Connection τ) : Prop :=
  Serves answers c d ∨ ∃ e reason, Serves answers c e ∧ e.isClosed = false ∧
    reason ≠ CloseReason.protocol .unexpectedReply ∧ d = e.finishClose reason

theorem countParseError_cases (c : Connection τ) :
    c.countParseError = { c with parseErrors := c.parseErrors + 1 } ∨
    c.countParseError = Connection.finishClose (.protocol (.tooManyParseErrors (c.parseErrors + 1)))
      { c with parseErrors := c.parseErrors + 1 } := by
  unfold countParseError
  dsimp only
  split
  · exact .inr rfl
  · exact .inl rfl

theorem Serves.countParseError {n : Nat} {c d : Connection τ} (h : Serves n c d)
    (hopen : c.isClosed = false) : ServesOrCloses n c d.countParseError := by
  have hstep : Serves 0 d { d with parseErrors := d.parseErrors + 1 } :=
    serves_adjust { Alike.refl d with }
  have hcount := h.trans hstep
  rcases countParseError_cases d with hd | hd
  · rw [hd]
    exact .inl hcount
  · rw [hd]
    exact .inr ⟨_, _, hcount, hcount.isClosed.trans hopen, by simp, rfl⟩

theorem parse_of_isBlankLine {line : String} (h : Text.isBlankLine line.toList = true) :
    Record.parse line = .error .emptyRecord := if_pos h

theorem processFrame_error (dev : Device σ) {t : Turn τ σ} (hopen : t.conn.isClosed = false)
    (e : ParseError) : processFrame dev t (.error e) = t.onConn countParseError := by
  unfold processFrame
  rw [if_neg (by simp [hopen])]

theorem processFrame_ok (dev : Device σ) {t : Turn τ σ} (hopen : t.conn.isClosed = false)
    (line : String) : processFrame dev t (.ok line) = processLine dev line t := by
  unfold processFrame
  rw [if_neg (by simp [hopen])]

theorem processLine_error (dev : Device σ) (t : Turn τ σ) {line : String} {e : ParseError}
    (hparse : Record.parse line = .error e) : processLine dev line t = t ∨
      processLine dev line t = t.onConn countParseError := by
  unfold processLine
  by_cases hblank : Text.isBlankLine line.toList = true
  · exact .inl (if_pos hblank)
  · rw [if_neg hblank, hparse]
    exact .inr rfl

theorem processLine_ok (dev : Device σ) (t : Turn τ σ) {line : String} {r : Record}
    (hparse : Record.parse line = .ok r) : processLine dev line t =
      match dispatch dev r t with
      | (t, none) => t.onConn fun c => { c with parseErrors := 0 }
      | (t, some _) => t.onConn countParseError := by
  have hblank : Text.isBlankLine line.toList ≠ true := by
    intro h
    rw [parse_of_isBlankLine h] at hparse
    cases hparse
  unfold processLine
  rw [if_neg hblank]
  generalize Record.parse line = p at hparse ⊢
  subst hparse
  rfl

/-- What becomes of a turn with a frame, by the record that the frame is read as. -/
inductive Handled (dev : Device σ) (t : Turn τ σ) : Option Record → Turn τ σ → Prop
  | blank : Handled dev t none t
  | malformed : Handled dev t none (t.onConn countParseError)
  | accepted {r : Record} (h : (dispatch dev r t).2 = none) :
    Handled dev t (some r) ((dispatch dev r t).1.onConn fun c => { c with parseErrors := 0 })
  | refused {r : Record} {e : ParseError} (h : (dispatch dev r t).2 = some e) :
    Handled dev t (some r) ((dispatch dev r t).1.onConn countParseError)

/-- **One frame** on an open connection. -/
theorem handled_processFrame (dev : Device σ) {t : Turn τ σ} (hopen : t.conn.isClosed = false)
    (frame : Framing.Frame) : Handled dev t (recordOf? frame) (processFrame dev t frame) := by
  cases frame with
  | error e =>
    rw [processFrame_error dev hopen]
    exact .malformed
  | ok line =>
    rw [processFrame_ok dev hopen]
    cases hparse : Record.parse line with
    | error e =>
      have hnone : recordOf? (.ok line) = none := by simp [recordOf?, hparse, Except.toOption]
      rw [hnone]
      rcases processLine_error dev t hparse with h | h
      · rw [h]
        exact .blank
      · rw [h]
        exact .malformed
    | ok r =>
      have hsome : recordOf? (.ok line) = some r := by simp [recordOf?, hparse, Except.toOption]
      rw [hsome, processLine_ok dev t hparse]
      have haccepted := @Handled.accepted _ _ dev t r
      have hrefused := @Handled.refused _ _ dev t r
      generalize dispatch dev r t = p at haccepted hrefused ⊢
      obtain ⟨t', complaint⟩ := p
      cases complaint with
      | none => exact haccepted rfl
      | some e => exact hrefused rfl

/-- **One frame that is no reply.** It leaves the commands alone, unless it closes the connection
as one malformed record too many, and it is answered once when it is a request. -/
theorem serves_processFrame (dev : Device σ) {t : Turn τ σ} {frame : Framing.Frame}
    (hopen : t.conn.isClosed = false) (hr : ∀ r, recordOf? frame = some r → r.isReply = false) :
    ServesOrCloses (if (recordOf? frame).any Record.isRequest then 1 else 0) t.conn
      (processFrame dev t frame).conn := by
  cases frame with
  | error e =>
    rw [processFrame_error dev hopen]
    exact (Serves.refl t.conn).countParseError hopen
  | ok line =>
    rw [processFrame_ok dev hopen]
    cases hparse : Record.parse line with
    | error e =>
      simp only [recordOf?, hparse, Except.toOption, Option.any_none]
      rcases processLine_error dev t hparse with h | h
      · rw [h]
        exact .inl (.refl t.conn)
      · rw [h]
        exact (Serves.refl t.conn).countParseError hopen
    | ok r =>
      have hreply : r.isReply = false := hr r (by simp [recordOf?, hparse, Except.toOption])
      have hserves := serves_dispatch dev hreply hopen
      simp only [recordOf?, hparse, Except.toOption, Option.any_some]
      rw [processLine_ok dev t hparse]
      generalize dispatch dev r t = p at hserves ⊢
      obtain ⟨t', e⟩ := p
      cases e with
      | none =>
        have hreset : Serves 0 t'.conn { t'.conn with parseErrors := 0 } :=
          serves_adjust { Alike.refl t'.conn with }
        exact .inl (hserves.trans hreset)
      | some e => exact hserves.countParseError hopen

/-- **One frame that is a reply.** -/
theorem performs_processFrame_reply (dev : Device σ) {t : Turn τ σ} {frame : Framing.Frame}
    (hopen : t.conn.isClosed = false) {r : Record} (hframe : recordOf? frame = some r)
    (hr : r.isReply = true) : ∃ acts, ReplyActs t.conn.queue.inFlight acts ∧
      Performs t.conn (acts ++ [.adjust]) (processFrame dev t frame).conn := by
  cases frame with
  | error e => simp [recordOf?] at hframe
  | ok line =>
    cases hparse : Record.parse line with
    | error e => simp [recordOf?, hparse, Except.toOption] at hframe
    | ok s =>
      obtain rfl : s = r := by simpa [recordOf?, hparse, Except.toOption] using hframe
      rw [processFrame_ok dev hopen, processLine_ok dev t hparse]
      cases s with
      | reply code reason =>
        obtain ⟨acts, hacts, h⟩ := performs_receiveReply code reason hopen
        refine ⟨acts, hacts, h.concat (.adjust ?_)⟩
        exact { Alike.refl (t.conn.receiveReply code reason) with }
      | _ => simp [Record.isReply] at hr

/-! ## Chunks -/

/-- Acts of a connection's own. -/
def Proceeds (c d : Connection τ) : Prop :=
  ∃ acts, Performs c acts d ∧ ∀ a ∈ acts, a.isOwn = true

theorem Proceeds.refl (c : Connection τ) : Proceeds c c := ⟨[], .nil, by simp⟩

theorem Proceeds.trans {c d e : Connection τ} (h : Proceeds c d) (h' : Proceeds d e) :
    Proceeds c e := by
  obtain ⟨as, has, hown⟩ := h
  obtain ⟨bs, hbs, hown'⟩ := h'
  refine ⟨as ++ bs, has.append hbs, fun a ha => ?_⟩
  rcases List.mem_append.1 ha with ha | ha
  · exact hown a ha
  · exact hown' a ha

theorem Does.proceeds {a : Act} {c d : Connection τ} (h : Does c a d) (hown : a.isOwn = true) :
    Proceeds c d :=
  ⟨[a], h.performs, by simpa using hown⟩

theorem Serves.proceeds {n : Nat} {c d : Connection τ} (h : Serves n c d) : Proceeds c d := by
  obtain ⟨acts, h, hquiet, -⟩ := h
  exact ⟨acts, h, fun a ha => Act.isOwn_of_isQuiet (hquiet a ha)⟩

theorem ServesOrCloses.proceeds {n : Nat} {c d : Connection τ} (h : ServesOrCloses n c d) :
    Proceeds c d := by
  rcases h with h | ⟨e, reason, h, hopen, -, rfl⟩
  · exact h.proceeds
  · exact h.proceeds.trans ((Does.close hopen reason).proceeds rfl)

theorem proceeds_pump (c : Connection τ) : Proceeds c c.pump := by
  rcases performs_pump c with h | ⟨-, -, q, h⟩
  · rw [h]
    exact .refl c
  · exact h.proceeds rfl

theorem ReplyActs.isOwn {flight : Option Queued} {acts : List Act} (h : ReplyActs flight acts) :
    ∀ a ∈ acts, a.isOwn = true := by
  cases h <;> simp [Act.isOwn]

theorem proceeds_processFrame (dev : Device σ) (t : Turn τ σ) (frame : Framing.Frame) :
    Proceeds t.conn (processFrame dev t frame).conn := by
  by_cases hopen : t.conn.isClosed = true
  · unfold processFrame
    rw [if_pos hopen]
    exact .refl t.conn
  · rw [Bool.not_eq_true] at hopen
    by_cases hreply : ∃ r, recordOf? frame = some r ∧ r.isReply = true
    · obtain ⟨r, hframe, hr⟩ := hreply
      obtain ⟨acts, hacts, h⟩ := performs_processFrame_reply dev hopen hframe hr
      refine ⟨_, h, fun a ha => ?_⟩
      rcases List.mem_append.1 ha with ha | ha
      · exact hacts.isOwn a ha
      · rw [List.mem_singleton.1 ha]
        rfl
    · refine (serves_processFrame dev hopen fun r hframe => ?_).proceeds
      rw [← Bool.not_eq_true]
      exact fun hr => hreply ⟨r, hframe, hr⟩

theorem proceeds_frames (dev : Device σ) (frames : List Framing.Frame) (t : Turn τ σ) :
    Proceeds t.conn (frames.foldl (processFrame dev) t).conn := by
  induction frames generalizing t with
  | nil => exact .refl t.conn
  | cons frame frames ih => exact (proceeds_processFrame dev t frame).trans (ih _)

/-- Bytes of the peer lead to acts of the connection's own. -/
theorem proceeds_receive (dev : Device σ) (now : Instant) (bytes : Bytes) (t : Turn τ σ) :
    Proceeds t.conn (receive dev now bytes t).conn := by
  have harrive := Does.arrive (c := t.conn) now (t.conn.input.push bytes).2
  exact (harrive.proceeds rfl).trans (proceeds_frames dev _ (t.onConn fun c => { c with
    lastActivity := now, lastKeepalive := none, input := (t.conn.input.push bytes).2 }))

end Connection

end Observatory
