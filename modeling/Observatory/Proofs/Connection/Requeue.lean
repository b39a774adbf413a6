import Observatory.Proofs.Command.Queue
import Observatory.Proofs.Connection.Acts
/-!
# Commands that are to be sent again

A peer that is busy asks for the command in flight to be sent again later. The command goes back in
front of those that wait, and the next run of the timers sends it, before it looks at the silence of
the peer. Where no room is left in front, the command stays in flight and nothing sends it.

* `receive_requeue` — what the reply does.
* `pings_idle` — what the timers do while neither the child nor the peer is late.
* `resent_of_requeue` — both together.
-/

namespace Observatory

open Framing (stream)

namespace Connection

variable {τ σ : Type}

/-! ## The reply -/

/-- A chunk that completes one line, which asks for the command in flight to be sent again, puts it
back in the queue and changes nothing else that is ours. -/
theorem receive_requeue (dev : Device σ) (now : Instant) {t : Turn τ σ} {chunk : Bytes}
    {line reason : String} {q : Queued} (hopen : t.conn.isClosed = false)
    (hq : t.conn.queue.inFlight = some q) (hframes : (t.conn.input.push chunk).1 = [.ok line])
    (hparse : Record.parse line = .ok (.reply codeRequeue reason)) :
    (receive dev now chunk t).conn = { t.conn with
      lastActivity := now
      lastKeepalive := none
      input := (t.conn.input.push chunk).2
      queue := t.conn.queue.requeue.2
      parseErrors := 0 } := by
  have hreply (c : Connection τ) (hc : c.queue.inFlight = some q) :
      c.receiveReply codeRequeue reason = { c with queue := c.queue.requeue.2 } := by
    unfold receiveReply
    rw [hc, if_neg (by simp), if_neg (by decide), if_pos rfl]
  let heard : Turn τ σ := t.onConn fun c => { c with
    lastActivity := now, lastKeepalive := none, input := (t.conn.input.push chunk).2 }
  have hone : receive dev now chunk t = processFrame dev heard (.ok line) := by
    show List.foldl (processFrame dev) heard (t.conn.input.push chunk).1 = _
    rw [hframes]
    rfl
  rw [hone, processFrame_ok dev (t := heard) hopen, processLine_ok dev heard hparse]
  show { heard.conn.receiveReply codeRequeue reason with parseErrors := 0 } = _
  rw [hreply heard.conn hq]
  rfl

/-! ## The timers -/

theorem pump_of_waiting {c : Connection τ} {q : Queued} {rest : List Queued}
    (hup : c.isEstablished = true) (hnone : c.queue.inFlight = none)
    (hwaiting : c.queue.waiting = q :: rest) : c.pump = { c with
      output := c.output ++ stream [lineBytes q.command.encode]
      queue := { c.queue with inFlight := some q, waiting := rest } } := by
  unfold pump
  rw [if_pos hup]
  simp only [CommandQueue.startNext, hnone, hwaiting, sendLine_eq]

/-- While a command is in flight nothing is sent. -/
theorem pump_of_inFlight {c : Connection τ} {q : Queued} (hq : c.queue.inFlight = some q) :
    c.pump = c := by
  rcases performs_pump c with h | ⟨hnone, -, -⟩
  · exact h
  · rw [hq] at hnone
    cases hnone

/-- The peer has been silent for no longer than it may be. -/
def IsHeard (now : Instant) (c : Connection τ) : Prop :=
  ∀ timeout ∈ c.timeout, Instant.since now c.lastActivity ≤ timeout

theorem IsHeard.pump {now : Instant} {c : Connection τ} (h : c.IsHeard now) :
    c.pump.IsHeard now := by
  have hsame : c.pump.timeout = c.timeout ∧ c.pump.lastActivity = c.lastActivity := by
    unfold Connection.pump
    dsimp only
    split
    · split <;> exact ⟨rfl, rfl⟩
    · exact ⟨rfl, rfl⟩
  unfold IsHeard
  rw [hsame.1, hsame.2]
  exact h

/-- The child, if there is one, has not run for longer than it may. -/
def IsTimely (now : Instant) (c : Connection τ) : Prop :=
  ∀ h ∈ c.helper, h.deadlinePassed now = false

/-- Nothing, or the question for a sign of life. -/
def IsPing (records : List Record) : Prop := records = [] ∨ records = [.technical "ready"]

/-- The commands are as they were, and nothing was written but perhaps a question for a sign of
life. -/
def Pings (c d : Connection τ) : Prop :=
  d.state = c.state ∧ d.queue = c.queue ∧
    ∃ pings, IsPing pings ∧ d.output = c.output ++ recordBytes pings

theorem Pings.refl (c : Connection τ) : Pings c c :=
  ⟨rfl, rfl, [], .inl rfl, (List.append_nil _).symm⟩

theorem pings_watchSilence {now : Instant} {timeout : Duration} {c : Connection τ}
    (h : Instant.since now c.lastActivity ≤ timeout) : Pings c (c.watchSilence now timeout) := by
  have hask (due : Bool) : Pings c (if due = true then
      { c.send (.technical "ready") with lastKeepalive := some now } else c) := by
    cases due with
    | false => exact .refl c
    | true => exact ⟨rfl, rfl, [.technical "ready"], .inr rfl, by rw [if_pos rfl, send_eq]⟩
  unfold watchSilence
  dsimp only
  rw [if_neg (Nat.not_lt.2 h)]
  exact hask _

/-- Timers that find nobody late send the next command, and perhaps ask for a sign of life. -/
theorem pings_idle {now : Instant} {c : Connection τ} (hup : c.isEstablished = true)
    (htimely : c.IsTimely now) (hheard : c.IsHeard now) : Pings c.pump (c.idle now) := by
  have hidle : c.idle now = c.idleEstablished now := by
    unfold idle
    cases hhelper : c.helper with
    | none => rfl
    | some h => simp only [htimely h hhelper, Bool.false_eq_true, if_false]
  rw [hidle]
  unfold idleEstablished
  rw [if_pos hup]
  dsimp only
  split
  · exact .refl _
  · next timeout htimeout => exact pings_watchSilence (hheard.pump timeout htimeout)

/-- A child that ran for too long takes its connection with it. -/
theorem idle_overdue {now : Instant} {c : Connection τ} (hlate : ¬ c.IsTimely now) :
    (c.idle now).isClosed = true := by
  unfold idle
  cases hhelper : c.helper with
  | none => exact absurd (fun h hh => by rw [hhelper] at hh; cases hh) hlate
  | some h =>
    have hpassed : h.deadlinePassed now = true := by
      by_contra hno
      refine hlate fun other hother => ?_
      rw [hhelper] at hother
      cases hother
      simpa using hno
    simp only [hpassed, if_true]
    rfl

/-! ## Both -/

/-- The connection is up and the command is in flight, with the same commands behind it. In the
meantime the given lines were written, and perhaps a question for a sign of life. -/
structure Carries (q : Queued) (lines : List Bytes) (c d : Connection τ) : Prop where
  established : d.isEstablished = true
  inFlight : d.queue.inFlight = some q
  waiting : d.queue.waiting = c.queue.waiting
  output : ∃ pings, IsPing pings ∧ d.output = c.output ++ stream lines ++ recordBytes pings

theorem Carries.of_pings {q : Queued} {lines : List Bytes} {c d e : Connection τ}
    (h : Pings d e) (hup : d.isEstablished = true) (hq : d.queue.inFlight = some q)
    (hwaiting : d.queue.waiting = c.queue.waiting) (hout : d.output = c.output ++ stream lines) :
    Carries q lines c e := by
  obtain ⟨hstate, hqueue, pings, hpings, hwritten⟩ := h
  refine ⟨?_, ?_, ?_, pings, hpings, ?_⟩
  · unfold isEstablished at hup ⊢
    rw [hstate, hup]
  · rw [hqueue, hq]
  · rw [hqueue, hwaiting]
  · rw [hwritten, hout]

/-- **A command that is to be sent again** is sent by the next run of the timers, and is in flight
again in front of the commands that waited: if there was room to put it back, and unless a child
that is late takes the connection with it. Where the queue is full the command is in flight as
before, and nothing of it was written. -/
theorem resent_of_requeue (dev : Device σ) {now later : Instant} {t : Turn τ σ} {chunk : Bytes}
    {line reason : String} {q : Queued} (hup : t.conn.isEstablished = true)
    (hq : t.conn.queue.inFlight = some q) (hframes : (t.conn.input.push chunk).1 = [.ok line])
    (hparse : Record.parse line = .ok (.reply codeRequeue reason))
    (hsilent : ∀ timeout ∈ t.conn.timeout, Instant.since later now ≤ timeout) :
    let e := (receive dev now chunk t).conn.idle later
    (t.conn.IsTimely later → t.conn.queue.isFull = false →
      Carries q [lineBytes q.command.encode] t.conn e) ∧
    (t.conn.IsTimely later → t.conn.queue.isFull = true → Carries q [] t.conn e) ∧
    (¬ t.conn.IsTimely later → e.isClosed = true) := by
  have hopen : t.conn.isClosed = false := by
    have hstate : t.conn.state = .established := by simpa [isEstablished] using hup
    simp [isClosed, hstate]
  have hreceive := receive_requeue dev now hopen hq hframes hparse
  generalize (receive dev now chunk t).conn = d at hreceive ⊢
  have hdup : d.isEstablished = true := by rw [hreceive]; exact hup
  have hdheard : d.IsHeard later := by rw [hreceive]; exact hsilent
  have hdtimely : d.IsTimely later ↔ t.conn.IsTimely later := by rw [hreceive]; exact Iff.rfl
  have hdout : d.output = t.conn.output := by rw [hreceive]
  have hdqueue : d.queue = t.conn.queue.requeue.2 := by rw [hreceive]
  refine ⟨fun htimely hroom => ?_, fun htimely hfull => ?_, fun hlate => ?_⟩
  · have hpings := pings_idle hdup (hdtimely.2 htimely) hdheard
    rw [CommandQueue.requeue_eq hq hroom] at hdqueue
    have hnone : d.queue.inFlight = none := by rw [hdqueue]
    have hwaiting : d.queue.waiting = q :: t.conn.queue.waiting := by rw [hdqueue]
    rw [pump_of_waiting hdup hnone hwaiting] at hpings
    exact .of_pings hpings hdup rfl rfl (by rw [hdout])
  · have hpings := pings_idle hdup (hdtimely.2 htimely) hdheard
    rw [CommandQueue.requeue_of_full hfull] at hdqueue
    have hdq : d.queue.inFlight = some q := by rw [hdqueue, hq]
    rw [pump_of_inFlight hdq] at hpings
    refine .of_pings hpings hdup hdq (by rw [hdqueue]) ?_
    rw [hdout, Framing.stream_nil, List.append_nil]
  · exact idle_overdue (mt hdtimely.1 hlate)

/-- A busy peer gets the command again, in front of the one that waits. -/
theorem resent_of_busy :
    let c : Connection Unit := ["expose", "park"].foldl
      (fun c opcode => (c.queueCommand false { opcode }).2) (.inMemory 1 .device "camera" 0)
    let t : Turn Unit Unit := ⟨c, ⟨{}, ()⟩⟩
    Carries ⟨⟨1, 1⟩, { opcode := "expose" }⟩ [lineBytes "expose".toList] c
      ((receive Device.passive 1 (Text.Utf8.encode "-005 \"busy\"\n") t).conn.idle 2) := by
  intro c t
  have hframes : (c.input.push (Text.Utf8.encode "-005 \"busy\"\n")).1 =
      [.ok "-005 \"busy\""] := rfl
  have hparse : Record.parse "-005 \"busy\"" = .ok (.reply codeRequeue "busy") := rfl
  have hsilent : ∀ timeout ∈ c.timeout, Instant.since 2 1 ≤ timeout := by
    intro timeout htimeout
    obtain rfl : Duration.ofSeconds 300 = timeout := Option.some.inj htimeout
    decide
  have htimely : c.IsTimely 2 := fun h hh => by cases hh
  have hup : t.conn.isEstablished = true := rfl
  have hq : t.conn.queue.inFlight = some ⟨⟨1, 1⟩, { opcode := "expose" }⟩ := rfl
  have hroom : t.conn.queue.isFull = false := rfl
  exact (resent_of_requeue Device.passive hup hq hframes hparse hsilent).1 htimely hroom

/-- With as many commands waiting as may wait, the one in flight is not sent again. -/
theorem not_resent_of_full_queue :
    let c : Connection Unit := ("expose" :: List.replicate 64 "park").foldl
      (fun c opcode => (c.queueCommand false { opcode }).2) (.inMemory 1 .device "camera" 0)
    let t : Turn Unit Unit := ⟨c, ⟨{}, ()⟩⟩
    let e := (receive Device.passive 1 (Text.Utf8.encode "-005 \"busy\"\n") t).conn.idle 2
    c.queue.inFlight = some ⟨⟨1, 1⟩, { opcode := "expose" }⟩ ∧ c.queue.waiting.length = 64 ∧
      e.output = c.output ∧
      ¬ Carries ⟨⟨1, 1⟩, { opcode := "expose" }⟩ [lineBytes "expose".toList] c e := by
  intro c t e
  have hsame : e.output = c.output := by decide +kernel
  refine ⟨by decide +kernel, by decide +kernel, hsame, fun h => ?_⟩
  obtain ⟨pings, -, hout⟩ := h.output
  rw [hsame, List.append_assoc] at hout
  have hnone := List.append_right_eq_self.1 hout.symm
  exact absurd (List.append_eq_nil_iff.1 hnone).1 (by decide +kernel)

end Connection

end Observatory
