import Observatory.Proofs.Connection.Acts
/-!
# What the owner of a connection does

The operations of an owner as acts: it queues commands, runs timers, asks for the end, looks
after a connect and moves bytes over a transport.

* `performs_queueCommand`, `performs_idle`, `performs_close` — what they come down to.
* `performs_readPass`, `performs_writePass` — passes over any transport.
-/

namespace Observatory.Connection

variable {τ σ : Type}

/-! ## Links -/

/-- The link of a connection fits its state. -/
structure Linked (c : Connection τ) : Prop where
  closed : c.isClosed = true → c.link = .detached
  connecting : ∀ address, c.link = .connecting address → c.state = .connecting
  draining : c.state = .draining → c.link.isStream = true

theorem Linked.not_closed {c : Connection τ} (h : Linked c) (hlink : c.link ≠ .detached) :
    c.isClosed = false := by
  rw [← Bool.not_eq_true]
  exact fun hclosed => hlink (h.closed hclosed)

theorem Does.linked {c d : Connection τ} {a : Act} (h : Does c a d) (hc : Linked c) :
    Linked d := by
  cases h with
  | push v => rw [sendValue_eq]; exact { hc with }
  | tell _ => exact { hc with }
  | answer _ _ => exact { hc with }
  | note _ _ => exact { hc with }
  | accept _ _ => exact { hc with }
  | refuse _ => exact { hc with }
  | start _ _ _ => exact { hc with }
  | complete _ _ _ _ => exact { hc with }
  | requeue _ _ _ => exact { hc with }
  | connect _ h => subst h; exact ⟨by simp [isClosed], by simp, by simp⟩
  | drain _ hlink =>
    refine ⟨by simp [isClosed], fun address h => ?_, fun _ => hlink⟩
    simp only at h
    simp [h, Link.isStream] at hlink
  | close _ _ => exact ⟨fun _ => rfl, by simp [finishClose], by simp [finishClose]⟩
  | flush _ => exact { hc with }
  | arrive _ _ => exact { hc with }
  | adjust h =>
    rcases h.link with hlink | ⟨hfrom, hto⟩
    · refine ⟨fun hclosed => ?_, fun address ha => ?_, fun hd => ?_⟩
      · rw [hlink]
        exact hc.closed (by rwa [isClosed, h.state] at hclosed)
      · rw [h.state]
        exact hc.connecting address (hlink ▸ ha)
      · rw [hlink]
        exact hc.draining (h.state ▸ hd)
    · refine ⟨fun hclosed => ?_, fun address ha => ?_, fun _ => hto⟩
      · rw [isClosed, h.state] at hclosed
        rw [hc.closed hclosed] at hfrom
        cases hfrom
      · rw [ha] at hto
        cases hto

theorem Performs.linked {c d : Connection τ} {acts : List Act} (h : Performs c acts d)
    (hc : Linked c) : Linked d :=
  h.induct (fun _ _ _ _ hd => hd.linked) hc

/-- A connection without a child never has one. -/
theorem Does.helper {c d : Connection τ} {a : Act} (h : Does c a d) (hc : c.helper = none) :
    d.helper = none := by
  cases h with
  | push v => rw [sendValue_eq]; exact hc
  | connect _ h => subst h; exact hc
  | adjust h => exact h.helper hc
  | _ => exact hc

theorem Performs.helper {c d : Connection τ} {acts : List Act} (h : Performs c acts d)
    (hc : c.helper = none) : d.helper = none :=
  h.induct (fun _ _ _ _ hd => hd.helper) hc

/-- A connection as it is made: over nothing, over a stream, or waiting for its connect. -/
structure IsNew (c : Connection τ) : Prop where
  origin : c.state = .established ∧ (c.link = .detached ∨ ∃ s, c.link = .stream s) ∨
    c.state = .connecting ∧ ∃ address, c.link = .connecting address
  queue : c.queue = { connection := c.id }
  events : c.events = []
  helper : c.helper = none
  output : c.output = []
  held : c.input.held = []
  discarding : c.input.discarding = false
  announced : c.announced = []
  replicas : c.replicas = []
  parseErrors : c.parseErrors = 0

theorem isNew_inMemory (id : ConnId) (kind : PeerKind) (name : String) (now : Instant) :
    IsNew (inMemory id kind name now : Connection τ) :=
  ⟨.inl ⟨rfl, .inl rfl⟩, rfl, rfl, rfl, rfl, rfl, rfl, rfl, rfl, rfl⟩

theorem isNew_overStream (id : ConnId) (kind : PeerKind) (name : String) (stream : τ)
    (now : Instant) : IsNew (overStream id kind name stream now) :=
  ⟨.inl ⟨rfl, .inr ⟨stream, rfl⟩⟩, rfl, rfl, rfl, rfl, rfl, rfl, rfl, rfl, rfl⟩

theorem isNew_connecting (id : ConnId) (kind : PeerKind) (name address : String) (now : Instant) :
    IsNew (connecting id kind name address now : Connection τ) :=
  ⟨.inr ⟨rfl, address, rfl⟩, rfl, rfl, rfl, rfl, rfl, rfl, rfl, rfl, rfl⟩

theorem IsNew.linked {c : Connection τ} (h : IsNew c) : Linked c := by
  rcases h.origin with ⟨hstate, hlink⟩ | ⟨hstate, address, hlink⟩
  · refine ⟨by simp [isClosed, hstate], fun address ha => ?_, by simp [hstate]⟩
    rcases hlink with hlink | ⟨s, hlink⟩ <;> simp [hlink] at ha
  · exact ⟨by simp [isClosed, hstate], fun _ _ => hstate, by simp [hstate]⟩

/-! ## Commands -/

/-- A command is turned away, or taken in and perhaps sent at once. -/
theorem performs_queueCommand (urgent : Bool) (command : Command) (c : Connection τ) :
    (∃ e, c.queueCommand urgent command = (.error e, c)) ∨
    (∃ e d, Does c .refuse d ∧ c.queueCommand urgent command = (.error e, d)) ∨
    ∃ handle d, Does c (.accept urgent ⟨handle, command⟩) d ∧
      c.queueCommand urgent command = (.ok handle, d.pump) := by
  unfold queueCommand
  cases hrefusal : c.refusal? with
  | some e => exact .inl ⟨e, rfl⟩
  | none =>
    right
    have hopen : c.isClosed = false := by
      unfold refusal? at hrefusal
      rw [← Bool.not_eq_true]
      intro h
      rw [if_pos h] at hrefusal
      cases hrefusal
    cases hinsert : c.queue.insert urgent command with
    | mk handle queue =>
      cases handle with
      | none =>
        have hqueue : queue = { c.queue with lastSequence := c.queue.lastSequence + 1 } := by
          unfold CommandQueue.insert at hinsert
          dsimp only [CommandQueue.wrap] at hinsert
          split at hinsert
          · exact (Prod.mk.inj hinsert).2.symm
          · cases hinsert
        subst hqueue
        exact .inl ⟨_, _, .refuse hopen, rfl⟩
      | some handle => exact .inr ⟨handle, _, .accept hopen hinsert, rfl⟩

/-! ## Closing -/

theorem performs_close (reason : CloseReason) (c : Connection τ) :
    c.close reason = c ∨ Does c .drain (c.close reason) ∨
      Does c (.close reason) (c.close reason) := by
  have hasked (hopen : c.isClosed = false) :
      Does c .drain (if reason = .requested && c.wantsWrite && c.link.isStream then
          { c with state := .draining } else c.finishClose reason) ∨
        Does c (.close reason) (if reason = .requested && c.wantsWrite && c.link.isStream then
          { c with state := .draining } else c.finishClose reason) := by
    split
    · next h =>
      simp only [Bool.and_eq_true] at h
      exact .inl (.drain hopen h.2)
    · exact .inr (.close hopen reason)
  unfold close
  cases hstate : c.state with
  | closed => exact .inl rfl
  | draining =>
    dsimp only
    split
    · exact .inl rfl
    · exact .inr (.inr (.close (by simp [isClosed, hstate]) reason))
  | connecting => exact .inr (hasked (by simp [isClosed, hstate]))
  | established => exact .inr (hasked (by simp [isClosed, hstate]))

/-! ## Timers -/

theorem murmurs_keepalive (now : Instant) (c : Connection τ) :
    Murmurs c { c.send (.technical "ready") with lastKeepalive := some now } := by
  have hready := murmurs_tell (c := c) (r := .technical "ready")
    (by decide : Text.OneLine "ready".toList)
  have hasked : Murmurs (c.send (.technical "ready"))
      { c.send (.technical "ready") with lastKeepalive := some now } :=
    murmurs_adjust { Alike.refl (c.send (.technical "ready")) with }
  exact hready.trans hasked

/-- A keepalive is sent, or nothing happens, or the connection is closed. -/
theorem watchSilence_cases (now : Instant) (timeout : Duration) (c : Connection τ) :
    Murmurs c (c.watchSilence now timeout) ∨
      c.watchSilence now timeout = c.finishClose .timeout := by
  unfold watchSilence
  dsimp only
  split
  · exact .inr rfl
  · left
    cases c.lastKeepalive <;> dsimp only <;> split
    · exact murmurs_keepalive now c
    · exact .refl c
    · exact murmurs_keepalive now c
    · exact .refl c

/-- The timers of a connection without a child send the next command and then, perhaps, a
keepalive, or they close. -/
theorem idle_cases (now : Instant) {c : Connection τ} (hhelper : c.helper = none) :
    ∃ d, (d = c ∨ c.queue.inFlight = none ∧ ∃ q, Does c (.start q) d) ∧
      (Murmurs d (c.idle now) ∨ d.isClosed = false ∧ c.idle now = d.finishClose .timeout) := by
  unfold idle
  rw [hhelper]
  unfold idleEstablished
  by_cases hup : c.isEstablished = true
  · simp only [if_pos hup]
    have hopen : c.pump.isClosed = false := by
      rw [isClosed, pump_state]
      simp only [isEstablished, beq_iff_eq] at hup
      simp [hup]
    refine ⟨c.pump, ?_, ?_⟩
    · rcases performs_pump c with h | ⟨hnone, -, q, h⟩
      · exact .inl h
      · exact .inr ⟨hnone, q, h⟩
    · cases c.pump.timeout with
      | none => exact .inl (.refl _)
      | some timeout => exact (watchSilence_cases now timeout c.pump).imp_right (⟨hopen, ·⟩)
  · rw [if_neg hup]
    exact ⟨c, .inl rfl, .inl (.refl c)⟩

theorem performs_idle (now : Instant) {c : Connection τ} (hhelper : c.helper = none) :
    ∃ d, (d = c ∨ c.queue.inFlight = none ∧ ∃ q, Does c (.start q) d) ∧
      ServesOrCloses 0 d (c.idle now) := by
  obtain ⟨d, hd, hidle⟩ := idle_cases now hhelper
  refine ⟨d, hd, ?_⟩
  rcases hidle with h | ⟨hopen, h⟩
  · exact .inl h.serves
  · exact .inr ⟨d, .timeout, .refl d, hopen, by simp, h⟩

/-! ## Connects -/

/-- A connect that came to an end is reported, and the next command is sent, or the connection is
closed. -/
theorem performs_pollConnect (answer : ConnectAnswer τ) (now : Instant) {c : Connection τ}
    (hc : Linked c) : (c.pollConnect answer now).2 = c ∨
    (∃ d e, Does c .connect d ∧ Does d (.note (.connectionEstablished c.id c.name)) e ∧
      (c.pollConnect answer now).2 = e.pump) ∨
    ∃ reason, Does c (.close (.io reason)) (c.pollConnect answer now).2 := by
  unfold pollConnect
  split
  · next address stream hlink =>
    exact .inr (.inl ⟨_, _, .connect hlink rfl, .note rfl rfl, rfl⟩)
  · next address reason hlink =>
    exact .inr (.inr ⟨reason, .close (hc.not_closed (by simp [hlink])) _⟩)
  · exact .inl rfl

theorem proceeds_close (reason : CloseReason) (c : Connection τ) :
    Proceeds c (c.close reason) := by
  rcases performs_close reason c with h | h | h
  · rw [h]
    exact .refl c
  · exact h.proceeds rfl
  · exact h.proceeds rfl

theorem proceeds_idle (now : Instant) {c : Connection τ} (hhelper : c.helper = none) :
    Proceeds c (c.idle now) := by
  obtain ⟨d, hd, hidle⟩ := performs_idle now hhelper
  rcases hd with rfl | ⟨-, q, hd⟩
  · exact hidle.proceeds
  · exact (hd.proceeds rfl).trans hidle.proceeds

theorem proceeds_pollConnect (answer : ConnectAnswer τ) (now : Instant) {c : Connection τ}
    (hc : Linked c) : Proceeds c (c.pollConnect answer now).2 := by
  rcases performs_pollConnect answer now hc with h | ⟨d, e, hd, he, h⟩ | ⟨reason, h⟩
  · rw [h]
    exact .refl c
  · rw [h]
    exact (hd.proceeds rfl).trans ((he.proceeds rfl).trans (proceeds_pump e))
  · exact h.proceeds rfl

/-! ## Passes -/

theorem Alike.isClosed {c d : Connection τ} (h : Alike c d) : d.isClosed = c.isClosed := by
  unfold Connection.isClosed
  rw [h.state]

theorem Alike.proceeds {c d : Connection τ} (h : Alike c d) : Proceeds c d :=
  (Does.adjust h).proceeds rfl

theorem Alike.proceeds_finishClose {c d : Connection τ} (h : Alike c d)
    (hopen : c.isClosed = false) (reason : CloseReason) : Proceeds c (d.finishClose reason) :=
  h.proceeds.trans ((Does.close (h.isClosed.trans hopen) reason).proceeds rfl)

theorem alike_readClosed (c : Connection τ) : Alike c { c with readClosed := true } :=
  { Alike.refl c with }

theorem proceeds_endOfInput {c : Connection τ} (hopen : c.isClosed = false) :
    Proceeds c c.endOfInput := by
  have hread := alike_readClosed c
  unfold endOfInput
  dsimp only
  split
  · split
    · exact hread.proceeds_finishClose hopen _
    · exact hread.proceeds
  · exact hread.proceeds_finishClose hopen _

theorem alike_link {c : Connection τ} {s : τ} (hlink : c.link = .stream s) (s' : τ) :
    Alike c { c with link := .stream s' } :=
  { Alike.refl c with link := .inr ⟨by simp [hlink, Link.isStream], rfl⟩ }

theorem proceeds_readFor (T : Transport τ) (dev : Device σ) (now : Instant) (readings : Nat)
    (moved : Bool) (t : Turn τ σ) :
    Proceeds t.conn (readFor T dev now readings moved t).2.conn := by
  induction readings generalizing moved t with
  | zero => exact .refl t.conn
  | succ readings ih =>
    unfold readFor
    split
    · next s hwants hlink =>
      have hopen : t.conn.isClosed = false := by
        simp only [wantsRead, isEstablished, Bool.and_eq_true, beq_iff_eq] at hwants
        simp [isClosed, hwants.1]
      obtain ⟨answer, s'⟩ := T.read readChunk s
      have hread := alike_link hlink s'
      have hopen' := hread.isClosed.trans hopen
      dsimp only
      split
      · exact hread.proceeds
      · exact hread.proceeds
      · exact hread.proceeds.trans (proceeds_endOfInput hopen')
      · exact hread.proceeds_finishClose hopen _
      · exact hread.proceeds.trans (proceeds_endOfInput hopen')
      · next bytes _ =>
        have hreceive := proceeds_receive dev now bytes
          (t.onConn fun c => { c with link := .stream s' })
        exact hread.proceeds.trans (hreceive.trans (ih true _))
    · exact .refl t.conn

theorem proceeds_readPass (T : Transport τ) (dev : Device σ) (now : Instant) (t : Turn τ σ) :
    Proceeds t.conn (readPass T dev now t).2.conn := by
  unfold readPass
  split
  · exact proceeds_readFor T dev now _ _ t
  · exact .refl t.conn

theorem proceeds_writeFor (T : Transport τ) (writings : Nat) (moved : Bool) {c : Connection τ}
    (hc : Linked c) : Proceeds c (writeFor T writings moved c).2.2 := by
  induction writings generalizing moved c with
  | zero => exact .refl c
  | succ writings ih =>
    unfold writeFor
    split
    · exact .refl c
    · next s _ hlink =>
      have hopen : c.isClosed = false := hc.not_closed (by simp [hlink])
      obtain ⟨answer, s'⟩ := T.write c.output s
      have hwrite := alike_link hlink s'
      dsimp only
      split
      · exact hwrite.proceeds
      · exact hwrite.proceeds
      · exact hwrite.proceeds_finishClose hopen _
      · next count _ =>
        have hflush := Does.flush (c := { c with link := .stream s' }) count
        have hlinked := hflush.linked ((Does.adjust hwrite).linked hc)
        exact hwrite.proceeds.trans ((hflush.proceeds rfl).trans (ih true hlinked))
      · exact hwrite.proceeds_finishClose hopen _
    · exact .refl c

theorem proceeds_writePass (T : Transport τ) {c : Connection τ} (hc : Linked c) :
    Proceeds c (c.writePass T).2 := by
  have hwritten := proceeds_writeFor T (c.output.length + 1) false hc
  unfold writePass
  dsimp only
  split
  · exact hwritten
  · split
    · next h =>
      simp only [Bool.and_eq_true, beq_iff_eq] at h
      exact hwritten.trans ((Does.close (by simp [isClosed, h.2]) _).proceeds rfl)
    · exact hwritten

end Observatory.Connection
