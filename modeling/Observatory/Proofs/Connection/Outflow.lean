import Observatory.Connection.Wire
import Observatory.Proofs.Connection.Converse
import Observatory.Proofs.Connection.Steady
/-!
# Output on its way out

A connection hands its output to its stream whenever it is told that the stream takes bytes. The
stream may take any part of what it is offered, nothing for now, or fail, and more is written in the
meantime. Whatever happens, the stream has taken what was written from the start up to some byte,
and the rest is the output. A requested close waits for the rest.

* `Logged`, `Transport.logged` — any transport, with a log of what its streams took.
* `Flushes`, `writeFor_cases` — one pass of writing, and every moment of it.
* `Move`, `Outflow` — what is done to a connection, with everything that was ever written on it.
* `output_conserved` — every run.
-/

namespace Observatory

open Framing (stream)

variable {τ σ : Type}

/-! ## Logs -/

/-- A stream, with the bytes that it took from its near end. -/
structure Logged (τ : Type) where
  stream : τ
  taken : Bytes := []

/-- What a writer got rid of. -/
def WriteAnswer.taken (offered : Bytes) : WriteAnswer → Bytes
  | accepted count => offered.take count
  | _ => []

namespace Transport

/-- The same transport, which writes down what it takes. -/
def logged (T : Transport τ) : Transport (Logged τ) where
  read limit s := ((T.read limit s.stream).1, { s with stream := (T.read limit s.stream).2 })
  write offered s := ((T.write offered s.stream).1,
    ⟨(T.write offered s.stream).2, s.taken ++ (T.write offered s.stream).1.taken offered⟩)
  readings s := T.readings s.stream

/-- A failure to write, as it is reported. -/
def FailsWriting (T : Transport τ) (message : String) : Prop := ∃ offered s,
  (T.write offered s).1 = .failed message ∨
    (T.write offered s).1 = .accepted 0 ∧ message = "write returned zero"

end Transport

namespace Connection

/-- Everything that the streams of a connection took. -/
def accepted (c : Connection (Logged τ)) : Bytes := (c.seen Logged.taken).flatten

theorem accepted_finishClose (reason : CloseReason) (c : Connection (Logged τ)) :
    (c.finishClose reason).accepted = c.accepted := by
  rw [accepted, seen_finishClose, accepted]

/-- The stream in use is the last one. -/
theorem accepted_of_stream {c : Connection (Logged τ)} {s : Logged τ} (hlink : c.link = .stream s) :
    c.accepted = (c.released.map Logged.taken).flatten ++ s.taken := by
  simp [accepted, seen_of_stream Logged.taken hlink]

theorem Steady.accepted {c d : Connection (Logged τ)} (h : Steady Logged.taken c d) :
    d.accepted = c.accepted :=
  congrArg List.flatten h.seen

/-! ## Writing -/

/-- Output went to the stream and nothing else happened. -/
structure Flushes (c d : Connection (Logged τ)) : Prop where
  id : d.id = c.id
  name : d.name = c.name
  state : d.state = c.state
  stream : d.link.isStream = c.link.isStream
  events : d.events = c.events
  grows : c.accepted <+: d.accepted
  conserved : d.accepted ++ d.output = c.accepted ++ c.output

theorem Flushes.refl (c : Connection (Logged τ)) : Flushes c c :=
  ⟨rfl, rfl, rfl, rfl, rfl, List.prefix_rfl, rfl⟩

theorem Flushes.trans {c d e : Connection (Logged τ)} (h : Flushes c d) (h' : Flushes d e) :
    Flushes c e where
  id := h'.id.trans h.id
  name := h'.name.trans h.name
  state := h'.state.trans h.state
  stream := h'.stream.trans h.stream
  events := h'.events.trans h.events
  grows := h.grows.trans h'.grows
  conserved := h'.conserved.trans h.conserved

/-- **One writing.** What the stream took is what leaves the output. -/
theorem flushes_write (T : Transport τ) {c : Connection (Logged τ)} {s : Logged τ}
    (hlink : c.link = .stream s) {n : Nat}
    (hn : (T.logged.write c.output s).1.taken c.output = c.output.take n) :
    Flushes c { c with
      link := .stream (T.logged.write c.output s).2
      output := c.output.drop n } := by
  have htaken : (T.logged.write c.output s).2.taken = s.taken ++ c.output.take n :=
    congrArg (s.taken ++ ·) hn
  refine ⟨rfl, rfl, rfl, by rw [hlink]; rfl, rfl, ?_, ?_⟩
  · rw [accepted_of_stream hlink, accepted_of_stream rfl, htaken, ← List.append_assoc]
    exact List.prefix_append _ _
  · rw [accepted_of_stream hlink, accepted_of_stream rfl, htaken]
    simp only [List.append_assoc, List.take_append_drop]

/-- A writing of which nothing comes leaves the output as it is. -/
theorem flushes_offer (T : Transport τ) {c : Connection (Logged τ)} {s : Logged τ}
    (hlink : c.link = .stream s) (hnone : (T.logged.write c.output s).1.taken c.output = []) :
    Flushes c { c with link := .stream (T.logged.write c.output s).2 } :=
  flushes_write T hlink (n := 0) hnone

/-- **Every moment of a pass**, after any number of writings: the pass goes on, or a failure of the
transport has ended the connection. -/
theorem writeFor_cases (T : Transport τ) (writings : Nat) (moved : Bool)
    (c : Connection (Logged τ)) :
    Flushes c (writeFor T.logged writings moved c).2.2 ∧
        (writeFor T.logged writings moved c).2.1 = false ∨
      c.link.isStream = true ∧ (writeFor T.logged writings moved c).2.1 = true ∧
        ∃ d message, Flushes c d ∧ T.FailsWriting message ∧
          (writeFor T.logged writings moved c).2.2 = d.finishClose (.io message) := by
  induction writings generalizing moved c with
  | zero => exact .inl ⟨.refl c, rfl⟩
  | succ writings ih =>
    unfold writeFor
    split
    · exact .inl ⟨.refl c, rfl⟩
    · next s _ hlink =>
      have hstream : c.link.isStream = true := by rw [hlink]; rfl
      have hoffer := flushes_offer T hlink
      have hwrite := @flushes_write _ T c s hlink
      have hfails (message : String) (h : (T.logged.write c.output s).1 = .failed message ∨
          (T.logged.write c.output s).1 = .accepted 0 ∧ message = "write returned zero") :
          T.FailsWriting message := ⟨c.output, s.stream, h⟩
      generalize T.logged.write c.output s = p at hoffer hwrite hfails ⊢
      obtain ⟨answer, s'⟩ := p
      cases answer with
      | notReady => exact .inl ⟨hoffer rfl, rfl⟩
      | wouldBlock => exact .inl ⟨hoffer rfl, rfl⟩
      | failed reason =>
        exact .inr ⟨hstream, rfl, _, reason, hoffer rfl, hfails reason (.inl rfl), rfl⟩
      | accepted count =>
        cases count with
        | zero => exact .inr ⟨hstream, rfl, _, _, hoffer rfl, hfails _ (.inr ⟨rfl, rfl⟩), rfl⟩
        | succ count =>
          have hfirst := hwrite (n := count + 1) rfl
          rcases ih true { c with link := .stream s', output := c.output.drop (count + 1) } with
            ⟨h, hgoes⟩ | ⟨-, hfailed, d, message, h, hmessage, heq⟩
          · exact .inl ⟨hfirst.trans h, hgoes⟩
          · exact .inr ⟨hstream, hfailed, d, message, hfirst.trans h, hmessage, heq⟩
    · exact .inl ⟨.refl c, rfl⟩

/-- At every moment of a pass. -/
theorem writeFor_conserved (T : Transport τ) (writings : Nat) (moved : Bool)
    (c : Connection (Logged τ)) :
    (writeFor T.logged writings moved c).2.2.accepted ++
        (writeFor T.logged writings moved c).2.2.output = c.accepted ++ c.output := by
  rcases writeFor_cases T writings moved c with ⟨h, -⟩ | ⟨-, -, d, message, h, -, heq⟩
  · exact h.conserved
  · rw [heq, accepted_finishClose]
    exact h.conserved

/-- Every writing that takes something shortens the output, so a pass never ends for the number of
its writings. -/
theorem writeFor_of_length_lt (T : Transport τ) {m n : Nat} (moved : Bool) {c : Connection τ}
    (hm : c.output.length < m) (hn : c.output.length < n) :
    writeFor T m moved c = writeFor T n moved c := by
  induction m generalizing n moved c with
  | zero => cases hm
  | succ m ih =>
    cases n with
    | zero => cases hn
    | succ n =>
      unfold writeFor
      split
      · rfl
      · next b bs s houtput hlink =>
        obtain ⟨answer, s'⟩ := T.write c.output s
        cases answer with
        | accepted count =>
          cases count with
          | zero => rfl
          | succ count =>
            have hshorter : (c.output.drop (count + 1)).length < c.output.length := by
              rw [List.length_drop, houtput, List.length_cons]
              omega
            exact ih true (c := { c with link := .stream s', output := c.output.drop (count + 1) })
              (Nat.lt_of_lt_of_le hshorter (Nat.le_of_lt_succ hm))
              (Nat.lt_of_lt_of_le hshorter (Nat.le_of_lt_succ hn))
        | _ => rfl
      · rfl

/-- **A pass** hands output over. A draining connection that has handed all of it over ends as it
was asked to; any connection ends when the transport fails. -/
theorem writePass_cases (T : Transport τ) (c : Connection (Logged τ)) :
    Flushes c (c.writePass T.logged).2 ∨ ∃ d reason, Flushes c d ∧
      (c.link.isStream = true ∧ (∃ message, reason = .io message ∧ T.FailsWriting message) ∨
        reason = .requested ∧ c.state = .draining ∧ d.output = []) ∧
      (c.writePass T.logged).2 = d.finishClose reason := by
  have hpass := writeFor_cases T (c.output.length + 1) false c
  unfold writePass
  generalize writeFor T.logged (c.output.length + 1) false c = p at hpass ⊢
  obtain ⟨moved, failed, d⟩ := p
  dsimp only at hpass ⊢
  rcases hpass with ⟨h, rfl⟩ | ⟨hstream, rfl, e, message, h, hmessage, rfl⟩
  · rw [if_neg Bool.false_ne_true]
    split
    · next hdone =>
      simp only [Bool.and_eq_true, beq_iff_eq, List.isEmpty_iff] at hdone
      exact .inr ⟨d, .requested, h, .inr ⟨rfl, h.state ▸ hdone.2, hdone.1⟩, rfl⟩
    · exact .inl h
  · rw [if_pos rfl]
    exact .inr ⟨e, .io message, h, .inl ⟨hstream, message, rfl, hmessage⟩, rfl⟩

/-! ## Moves -/

/-- What is done to a connection over a stream. -/
inductive Move (σ : Type) where
  /-- Writes a line. -/
  | say (line : List Char)
  | push (v : Value)
  | pushAll (values : Registry)
  | broadcast (values : Registry)
  | queue (urgent : Bool) (command : Command)
  /-- Takes bytes of the peer, with what the endpoint lends for that. -/
  | receive (own : Local σ) (now : Instant) (bytes : Bytes)
  /-- Reads from the stream. -/
  | read (own : Local σ) (now : Instant)
  | timers (now : Instant)
  | close (reason : CloseReason)
  /-- Writes to the stream. -/
  | write

namespace Move

def apply (T : Transport τ) (dev : Device σ) :
    Move σ → Connection (Logged τ) → Connection (Logged τ)
  | say line, c => c.sendLine line
  | push v, c => c.sendValue v
  | pushAll values, c => c.sendAll values
  | broadcast values, c => c.broadcastDirty values
  | queue urgent command, c => (c.queueCommand urgent command).2
  | receive own now bytes, c => (Connection.receive dev now bytes ⟨c, own⟩).conn
  | read own now, c => (readPass T.logged dev now ⟨c, own⟩).2.conn
  | timers now, c => c.idleEstablished now
  | close reason, c => c.close reason
  | write, c => (c.writePass T.logged).2

/-- The reasons for which a move may end a connection. -/
def MayEnd (T : Transport τ) (c : Connection (Logged τ)) : Move σ → CloseReason → Prop
  | receive _ _ _, reason => IsViolation reason
  | read _ _, reason => c.isEstablished = true ∧ IsFoundReading reason
  | timers _, reason => c.isEstablished = true ∧ reason = .timeout
  | close asked, reason =>
    reason = asked ∧ (asked = .requested → c.isEstablished = true ∧ c.output = [])
  | write, reason =>
    (∃ message, reason = .io message ∧ T.FailsWriting message) ∨
      reason = .requested ∧ c.state = .draining
  | _, _ => False

/-- The one move that hands output over. -/
def isWrite : Move σ → Bool
  | write => true
  | _ => false

end Move

/-! ## What moves do -/

/-- A connection over a stream has the stream until it has ended. -/
structure OnStream (c : Connection τ) : Prop where
  stream : c.link.isStream = !c.isClosed
  reached : c.state ≠ .connecting

/-- The connection is as open as it was. If it only waits for its output, it still does. -/
structure GoesOn (c d : Connection τ) : Prop where
  closed : d.isClosed = c.isClosed
  draining : c.state = .draining → d.state = .draining
  events : ∃ news, d.events = c.events ++ news ∧ ∀ e ∈ news, e.isEnd = false

/-- The connection ends, and its end is the last that is reported. -/
structure EndsFor (reason : CloseReason) (c d : Connection τ) : Prop where
  going : c.isClosed = false
  closed : d.isClosed = true
  events : ∃ news, d.events = c.events ++ news ++ [.connectionClosed c.id c.name reason] ∧
    ∀ e ∈ news, e.isEnd = false

theorem GoesOn.refl (c : Connection τ) : GoesOn c c := ⟨rfl, fun h => h, [], by simp, by simp⟩

theorem endsFor_finishClose {c d : Connection τ} (hgoing : c.isClosed = false) (hid : d.id = c.id)
    (hname : d.name = c.name)
    (hevents : ∃ news, d.events = c.events ++ news ∧ ∀ e ∈ news, e.isEnd = false)
    (reason : CloseReason) : EndsFor reason c (d.finishClose reason) := by
  obtain ⟨news, hnews, hmid⟩ := hevents
  refine ⟨hgoing, rfl, news ++ (d.queue.failAll connectionLost (-4)).1.map Event.commandFailed,
    ?_, ?_⟩
  · simp [finishClose, hnews, hid, hname]
  · intro e he
    rcases List.mem_append.1 he with he | he
    · exact hmid e he
    · obtain ⟨x, -, rfl⟩ := List.mem_map.1 he
      rfl

theorem onStream_finishClose (reason : CloseReason) (c : Connection τ) :
    OnStream (c.finishClose reason) :=
  ⟨rfl, by simp [finishClose]⟩

theorem Steady.goesOn {c d : Connection (Logged τ)} (h : Steady Logged.taken c d) : GoesOn c d :=
  ⟨h.isClosed, fun hdraining => h.state.trans hdraining, h.events⟩

theorem Steady.onStream {c d : Connection (Logged τ)} (h : Steady Logged.taken c d)
    (hc : OnStream c) : OnStream d :=
  ⟨by rw [h.stream, h.isClosed, hc.stream], by rw [h.state]; exact hc.reached⟩

theorem Flushes.isClosed {c d : Connection (Logged τ)} (h : Flushes c d) :
    d.isClosed = c.isClosed := by
  unfold Connection.isClosed
  rw [h.state]

theorem Flushes.goesOn {c d : Connection (Logged τ)} (h : Flushes c d) : GoesOn c d :=
  ⟨h.isClosed, fun hdraining => h.state.trans hdraining, [], by simp [h.events], by simp⟩

theorem Flushes.onStream {c d : Connection (Logged τ)} (h : Flushes c d) (hc : OnStream c) :
    OnStream d :=
  ⟨by rw [h.stream, h.isClosed, hc.stream], by rw [h.state]; exact hc.reached⟩

/-- **A request for the end.** It waits for the output, if it may. -/
theorem close_cases (reason : CloseReason) {c : Connection τ} (hc : OnStream c) :
    c.close reason = c ∧ (c.isEstablished = true → reason ≠ .requested) ∨
    c.close reason = { c with state := .draining } ∧ c.isEstablished = true ∧
      reason = .requested ∧ c.output ≠ [] ∨
    c.close reason = c.finishClose reason ∧ c.isClosed = false ∧
      (reason = .requested → c.isEstablished = true ∧ c.output = []) := by
  have hreached := hc.reached
  have hstream := hc.stream
  unfold close wantsWrite
  unfold isEstablished isClosed at *
  cases hstate : c.state with
  | connecting => exact absurd hstate hreached
  | closed => exact .inl ⟨rfl, by simp⟩
  | draining =>
    by_cases hasked : reason = .requested
    · exact .inl ⟨if_pos hasked, by simp⟩
    · exact .inr (.inr ⟨if_neg hasked, rfl, fun h => absurd h hasked⟩)
  | established =>
    have hlink : c.link.isStream = true := by rw [hstream, hstate]; rfl
    by_cases hwaits : reason = .requested ∧ c.output ≠ []
    · refine .inr (.inl ⟨if_pos ?_, rfl, hwaits⟩)
      simp [hwaits.1, hwaits.2, hlink]
    · refine .inr (.inr ⟨if_neg ?_, rfl, fun hasked => ⟨rfl, ?_⟩⟩)
      · intro h
        simp only [Bool.and_eq_true, decide_eq_true_eq, Bool.not_eq_true',
          List.isEmpty_eq_false_iff] at h
        exact hwaits ⟨h.1.1, h.1.2⟩
      · by_contra hne
        exact hwaits ⟨hasked, hne⟩

/-- Every move but a request for the end and writing keeps the connection steady until it ends. -/
theorem runs_apply (T : Transport τ) (dev : Device σ) {m : Move σ} (hclose : ∀ r, m ≠ .close r)
    (hwrite : m.isWrite = false) (c : Connection (Logged τ)) :
    Runs Logged.taken (m.MayEnd T c) c (m.apply T dev c) := by
  have hsee (limit : Nat) (s : Logged τ) : (T.logged.read limit s).2.taken = s.taken := rfl
  cases m with
  | say line => exact (steady_sendLine line c).runs
  | push v => exact (steady_sendValue v c).runs
  | pushAll values => exact (steady_sendValues _ c).runs
  | broadcast values => exact (steady_broadcastDirty values c).runs
  | queue urgent command => exact (steady_queueCommand urgent command c).runs
  | receive own now bytes => exact runs_receive dev now bytes ⟨c, own⟩
  | read own now =>
    cases hup : c.isEstablished with
    | true => exact (runs_readPass hsee dev now ⟨c, own⟩).mono fun _ hreason => ⟨hup, hreason⟩
    | false =>
      show Runs _ _ c (readPass T.logged dev now ⟨c, own⟩).2.conn
      rw [readPass_of_not_established T.logged dev now (t := ⟨c, own⟩) hup]
      exact (Steady.refl c).runs
  | timers now =>
    cases hup : c.isEstablished with
    | true => exact (runs_idleEstablished now c).mono fun _ hreason => ⟨hup, hreason⟩
    | false =>
      show Runs _ _ c (c.idleEstablished now)
      rw [idleEstablished, if_neg (by simp [hup])]
      exact (Steady.refl c).runs
  | close reason => exact absurd rfl (hclose reason)
  | write => cases hwrite

/-- Every move but writing adds whole lines to the output. -/
theorem lines_apply (T : Transport τ) (dev : Device σ) {m : Move σ} (hwrite : m.isWrite = false)
    (c : Connection (Logged τ)) :
    ∃ lines, (m.apply T dev c).output = c.output ++ stream lines := by
  have hwritten {d : Connection (Logged τ)} (h : Converses (fun _ => True) c d) :
      ∃ lines, d.output = c.output ++ stream lines := by
    obtain ⟨lines, hlines, -⟩ := h.lines
    exact ⟨lines, hlines⟩
  cases m with
  | say line => exact ⟨[lineBytes line], by rw [Move.apply, sendLine_eq]⟩
  | push v => exact hwritten (converses_sendValue v c)
  | pushAll values => exact hwritten (converses_sendValues _ c)
  | broadcast values => exact hwritten (converses_broadcastDirty values c)
  | queue urgent command => exact hwritten (converses_queueCommand trivial urgent c)
  | receive own now bytes => exact hwritten (converses_receive dev now bytes ⟨c, own⟩)
  | read own now => exact hwritten (converses_readPass T.logged dev now ⟨c, own⟩)
  | timers now => exact hwritten (converses_idleEstablished now c)
  | close reason => exact hwritten (converses_close reason c)
  | write => cases hwrite

/-- What becomes of a connection with a move: of its streams, its stage and its reports. -/
structure Moves (T : Transport τ) (m : Move σ) (c d : Connection (Logged τ)) : Prop where
  onStream : OnStream d
  grows : c.accepted <+: d.accepted
  kept : m.isWrite = false → d.accepted = c.accepted
  handed : m.isWrite = true → d.accepted ++ d.output = c.accepted ++ c.output
  waits : m = .close .requested → c.isEstablished = true → c.output ≠ [] →
    d = { c with state := .draining }
  fate : GoesOn c d ∨ ∃ reason, EndsFor reason c d ∧ m.MayEnd T c reason ∧
    (reason = .requested → d.output = [])

theorem not_requested_of_mayEnd {T : Transport τ} {c : Connection (Logged τ)} {m : Move σ}
    (hclose : ∀ r, m ≠ .close r) (hwrite : m.isWrite = false) {reason : CloseReason}
    (h : m.MayEnd T c reason) : reason ≠ .requested := by
  rintro rfl
  cases m with
  | receive own now bytes => obtain ⟨e, he⟩ := h; cases he
  | read own now => exact h.2
  | timers now => cases h.2
  | close reason => exact hclose reason rfl
  | write => cases hwrite
  | _ => exact h

theorem moves_of_runs {T : Transport τ} {m : Move σ} {c d : Connection (Logged τ)}
    (hclose : ∀ r, m ≠ .close r) (hwrite : m.isWrite = false) (hc : OnStream c)
    (h : Runs Logged.taken (m.MayEnd T c) c d) : Moves T m c d := by
  have hwaits : m = .close .requested → c.isEstablished = true → c.output ≠ [] →
      d = { c with state := .draining } := fun hm => absurd hm (hclose .requested)
  have hhanded : m.isWrite = true → d.accepted ++ d.output = c.accepted ++ c.output := by
    intro hm
    rw [hwrite] at hm
    cases hm
  rcases h with h | ⟨e, reason, h, hopen, hreason, rfl⟩
  · exact ⟨h.onStream hc, h.accepted ▸ List.prefix_rfl, fun _ => h.accepted, hhanded, hwaits,
      .inl h.goesOn⟩
  · have haccepted : (e.finishClose reason).accepted = c.accepted := by
      rw [accepted_finishClose, h.accepted]
    refine ⟨onStream_finishClose reason e, haccepted ▸ List.prefix_rfl, fun _ => haccepted, hhanded,
      hwaits, .inr ⟨reason, ?_, hreason, fun hasked => ?_⟩⟩
    · exact endsFor_finishClose (h.isClosed ▸ hopen) h.id h.name h.events reason
    · exact absurd hasked (not_requested_of_mayEnd hclose hwrite hreason)

theorem moves_close (T : Transport τ) (asked : CloseReason) {c : Connection (Logged τ)}
    (hc : OnStream c) : Moves T (.close asked : Move σ) c (c.close asked) := by
  rcases close_cases asked hc with ⟨h, hnot⟩ | ⟨h, hup, hasked, houtput⟩ | ⟨h, hopen, hdone⟩
  · rw [h]
    refine ⟨hc, List.prefix_rfl, fun _ => rfl, fun hm => (by cases hm), fun hm hup => ?_,
      .inl (.refl c)⟩
    exact absurd (Move.close.inj hm) (hnot hup)
  · rw [h]
    have hopen := isClosed_of_isEstablished hup
    refine ⟨⟨?_, by simp⟩, List.prefix_rfl, fun _ => rfl, fun hm => (by cases hm), fun _ _ _ => rfl,
      .inl ⟨?_, fun _ => rfl, [], by simp, by simp⟩⟩
    · rw [hc.stream, hopen]
      rfl
    · rw [hopen]
      rfl
  · rw [h]
    have haccepted := accepted_finishClose asked c
    refine ⟨onStream_finishClose asked c, haccepted ▸ List.prefix_rfl, fun _ => haccepted,
      fun hm => (by cases hm), fun hm hup houtput => ?_,
      .inr ⟨asked, ?_, ⟨rfl, hdone⟩, fun hasked => (hdone hasked).2⟩⟩
    · exact absurd (hdone (Move.close.inj hm)).2 houtput
    · exact endsFor_finishClose hopen rfl rfl ⟨[], by simp, by simp⟩ asked

theorem moves_write (T : Transport τ) {c : Connection (Logged τ)} (hc : OnStream c) :
    Moves T (.write : Move σ) c (c.writePass T.logged).2 := by
  rcases writePass_cases T c with h | ⟨d, reason, h, hwhy, heq⟩
  · exact ⟨h.onStream hc, h.grows, fun hm => (by cases hm), fun _ => h.conserved,
      fun hm => (by cases hm), .inl h.goesOn⟩
  · rw [heq]
    have hhanded : (d.finishClose reason).accepted ++ d.output = c.accepted ++ c.output := by
      rw [accepted_finishClose]
      exact h.conserved
    have hopen : c.isClosed = false := by
      rcases hwhy with ⟨hstream, -⟩ | ⟨-, hdraining, -⟩
      · simpa [hstream] using hc.stream.symm
      · unfold isClosed
        rw [hdraining]
        rfl
    refine ⟨onStream_finishClose reason d, ?_, fun hm => (by cases hm), fun _ => hhanded,
      fun hm => (by cases hm), .inr ⟨reason, ?_, ?_, fun hasked => ?_⟩⟩
    · rw [accepted_finishClose]
      exact h.grows
    · exact endsFor_finishClose hopen h.id h.name h.goesOn.events reason
    · exact hwhy.imp And.right fun hdone => ⟨hdone.1, hdone.2.1⟩
    · rcases hwhy with ⟨-, message, rfl, -⟩ | ⟨-, -, houtput⟩
      · cases hasked
      · exact houtput

/-- **One move.** -/
theorem moves_apply (T : Transport τ) (dev : Device σ) (m : Move σ) {c : Connection (Logged τ)}
    (hc : OnStream c) : Moves T m c (m.apply T dev c) := by
  cases m with
  | write => exact moves_write T hc
  | close asked => exact moves_close T asked hc
  | _ => exact moves_of_runs (by simp) rfl hc (runs_apply T dev (by simp) rfl c)

/-! ## Runs -/

/-- A connection, with everything that was ever written on it. -/
structure Outflow (τ : Type) where
  conn : Connection (Logged τ)
  put : Bytes

namespace Outflow

/-- At the start, what was written is what the stream took and what is still to go out. -/
def start (c : Connection (Logged τ)) : Outflow τ := ⟨c, c.accepted ++ c.output⟩

/-- One move. What it adds to the output is written down. -/
def apply (T : Transport τ) (dev : Device σ) (f : Outflow τ) (m : Move σ) : Outflow τ where
  conn := m.apply T dev f.conn
  put := if m.isWrite then f.put
    else f.put ++ (m.apply T dev f.conn).output.drop f.conn.output.length

def run (T : Transport τ) (dev : Device σ) (moves : List (Move σ)) (f : Outflow τ) : Outflow τ :=
  moves.foldl (fun f m => f.apply T dev m) f

/-- What was written is what the streams took, and then the output. -/
structure Sound (f : Outflow τ) : Prop where
  onStream : OnStream f.conn
  conserved : f.conn.accepted ++ f.conn.output = f.put

theorem Sound.apply {f : Outflow τ} (h : f.Sound) (T : Transport τ) (dev : Device σ)
    (m : Move σ) : (f.apply T dev m).Sound ∧
      ∃ lines, (f.apply T dev m).put = f.put ++ stream lines ∧
        (m.isWrite = false → (f.apply T dev m).conn.output = f.conn.output ++ stream lines) := by
  have hmoves := moves_apply T dev m h.onStream
  unfold Outflow.apply
  cases hm : m.isWrite with
  | true =>
    refine ⟨⟨hmoves.onStream, ?_⟩, [], by simp, by simp⟩
    exact (hmoves.handed hm).trans h.conserved
  | false =>
    obtain ⟨lines, hlines⟩ := lines_apply T dev hm f.conn
    refine ⟨⟨hmoves.onStream, ?_⟩, lines, by simp [hlines], fun _ => hlines⟩
    show (m.apply T dev f.conn).accepted ++ (m.apply T dev f.conn).output = _
    rw [hmoves.kept hm, hlines, ← List.append_assoc, h.conserved]
    simp

theorem Sound.run {f : Outflow τ} (h : f.Sound) (T : Transport τ) (dev : Device σ)
    (moves : List (Move σ)) :
    (f.run T dev moves).Sound ∧ ∃ lines, (f.run T dev moves).put = f.put ++ stream lines := by
  induction moves generalizing f with
  | nil => exact ⟨h, [], by simp [Outflow.run]⟩
  | cons m moves ih =>
    obtain ⟨hsound, lines, hlines, -⟩ := h.apply T dev m
    obtain ⟨hrun, later, hlater⟩ := ih hsound
    refine ⟨hrun, lines ++ later, ?_⟩
    show ((f.apply T dev m).run T dev moves).put = _
    rw [hlater, hlines, Framing.stream_append, List.append_assoc]

end Outflow

/-- **No byte of the output is lost or repeated**, whatever a stream answers to its writers and
whatever else is done in the meantime. At every moment, and at every moment of a pass of writing,
the stream has taken the lines that were written up to some byte, and the output is what follows
that byte; a pass has as many writings as it takes. With one more move the stream keeps what it took. A request to end an established
connection that has output left makes it wait, and it ends as requested only when all that was
written was taken; before that it ends for what its peer sent, for a failure of the transport, or
for a reason that is asked for. No move ends a connection twice. -/
theorem output_conserved (T : Transport τ) (dev : Device σ) {c : Connection (Logged τ)}
    (hup : c.isEstablished = true) (hlink : c.link.isStream = true) (moves : List (Move σ)) :
    let f := (Outflow.start c).run T dev moves
    (∃ lines, f.put = c.accepted ++ c.output ++ stream lines) ∧
    (∀ writings moved, let d := (writeFor T.logged writings moved f.conn).2.2
      d.accepted ++ d.output = f.put ∧ (f.conn.output.length < writings →
        writeFor T.logged writings moved f.conn =
          writeFor T.logged (f.conn.output.length + 1) moved f.conn)) ∧
    ∀ m : Move σ, let g := f.apply T dev m
      (∃ lines, g.put = f.put ++ stream lines ∧
        (m.isWrite = false → g.conn.output = f.conn.output ++ stream lines)) ∧
      g.conn.accepted ++ g.conn.output = g.put ∧ f.conn.accepted <+: g.conn.accepted ∧
      (m = .close .requested → f.conn.isEstablished = true → f.conn.output ≠ [] →
        g.conn = { f.conn with state := .draining }) ∧
      (GoesOn f.conn g.conn ∨ ∃ reason, EndsFor reason f.conn g.conn ∧
        m.MayEnd T f.conn reason ∧ (reason = .requested → g.conn.accepted = g.put)) := by
  intro f
  have hstart : (Outflow.start c).Sound := by
    refine ⟨⟨?_, ?_⟩, rfl⟩
    · show c.link.isStream = !c.isClosed
      rw [hlink, isClosed_of_isEstablished hup]
      rfl
    · show c.state ≠ .connecting
      rw [isEstablished, beq_iff_eq] at hup
      simp [hup]
  obtain ⟨hsound, hlines⟩ := hstart.run T dev moves
  refine ⟨hlines, fun writings moved => ?_, fun m => ?_⟩
  · exact ⟨(writeFor_conserved T writings moved f.conn).trans hsound.conserved,
      fun hmore => writeFor_of_length_lt T.logged moved hmore (Nat.lt_succ_self _)⟩
  · obtain ⟨hnext, hadded⟩ := hsound.apply T dev m
    have hmoves := moves_apply T dev m hsound.onStream
    refine ⟨hadded, hnext.conserved, hmoves.grows, hmoves.waits, hmoves.fate.imp_right ?_⟩
    rintro ⟨reason, hends, hmay, hdone⟩
    refine ⟨reason, hends, hmay, fun hasked => ?_⟩
    have hempty : (f.apply T dev m).conn.output = [] := hdone hasked
    rw [← hnext.conserved, hempty, List.append_nil]

/-- A stream that takes four bytes of six, and a request for the end in between. -/
theorem output_conserved_of_slow_stream :
    let c : Connection (Logged Wire) := overStream 1 .client "peer" ⟨{ budget := 4 }, []⟩ 0
    let f := (Outflow.start c).run Wire.transport Device.passive
      [.say "hello".toList, .close .requested, .write]
    c.isEstablished = true ∧ c.link.isStream = true ∧ f.conn.state = .draining ∧
      f.conn.accepted = Text.Utf8.encode "hell" ∧ f.conn.output = Text.Utf8.encode "o\n" ∧
      f.conn.accepted ++ f.conn.output = f.put := by
  intro c f
  have hrun := output_conserved Wire.transport Device.passive (c := c) rfl rfl
    [.say "hello".toList, .close .requested, .write]
  exact ⟨rfl, rfl, by decide +kernel, by decide +kernel, by decide +kernel, (hrun.2.1 0 false).1⟩

end Connection

end Observatory
