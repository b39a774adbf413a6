import Mathlib.Data.List.Nodup
import Mathlib.Logic.Relation
import Observatory.Proofs.Command.Queue
import Observatory.Proofs.Connection.Owner
/-!
# The life of a connection

Whatever happens to a connection without a child, it goes forward from its connect to its end,
every command it took in is reported once, and nothing is reported behind the end.

* `Does.advances` — one act: commands end from the front of the queue.
* `Life.Step.kept` — one operation keeps the books.
* `life_orderly` — every run.
-/

namespace Observatory

/-- How far a state is along the life of a connection. -/
def ConnState.rank : ConnState → Nat
  | connecting => 0
  | established => 1
  | draining => 2
  | closed => 3

namespace Connection

variable {τ σ : Type}

/-- The events that report commands lost with their connection. -/
def lostEvents (commands : List Queued) : List Event :=
  commands.map fun q => .commandFailed (q.complete (.failed connectionLost) (-4))

theorem completion?_lostEvents (commands : List Queued) :
    (lostEvents commands).filterMap Event.completion? =
      commands.map fun q => q.complete (.failed connectionLost) (-4) := by
  unfold lostEvents
  induction commands with
  | nil => rfl
  | cons q qs ih => simpa [Event.completion?] using ih

/-! ## One act -/

/-- What acts of a connection's own do to its books: the commands that ended, in order, and the
events that came. -/
structure Advances (c : Connection τ) (endings : List Ending) (news : List Event)
    (d : Connection τ) : Prop where
  forward : c.state.rank ≤ d.state.rank
  id : d.id = c.id
  name : d.name = c.name
  owner : d.queue.connection = c.queue.connection
  numbered : d.queue.lastSequence = c.queue.lastSequence
  pending : c.queue.pending = endings.map Ending.queued ++ d.queue.pending
  events : d.events = c.events ++ news
  notices : d.queue.notices = c.queue.notices ++ Ending.notices endings
  reported : news.filterMap Event.completion? = endings.map Ending.completion
  finished : c.isClosed = true → endings = [] ∧ news = []
  going : d.isClosed = false → ∀ e ∈ news, e.isEnd = false
  ends : c.isClosed = false → d.isClosed = true → d.queue.pending = [] ∧
    ∃ mid done lost reason,
      news = mid ++ lostEvents lost ++ [.connectionClosed d.id d.name reason] ∧
      endings = done ++ lost.map (CommandQueue.lost connectionLost (-4)) ∧
      (∀ e ∈ mid, e.isEnd = false) ∧
      mid.filterMap Event.completion? = done.map Ending.completion

/-- Acts that leave the books as they are. -/
theorem Advances.of_same {c d : Connection τ} (hstate : d.state = c.state) (hid : d.id = c.id)
    (hname : d.name = c.name) (hqueue : d.queue = c.queue) (hevents : d.events = c.events) :
    Advances c [] [] d where
  forward := Nat.le_of_eq (by rw [hstate])
  id := hid
  name := hname
  owner := by rw [hqueue]
  numbered := by rw [hqueue]
  pending := by rw [hqueue]; rfl
  events := by rw [hevents, List.append_nil]
  notices := by rw [hqueue, Ending.notices_nil, List.append_nil]
  reported := rfl
  finished := fun _ => ⟨rfl, rfl⟩
  going := by simp
  ends := fun hopen hclosed => by
    unfold isClosed at hopen hclosed
    rw [hstate, hopen] at hclosed
    cases hclosed

/-- Acts of an open connection that stays open. -/
theorem Advances.of_open {c d : Connection τ} {endings : List Ending} {news : List Event}
    (hforward : c.state.rank ≤ d.state.rank) (hid : d.id = c.id) (hname : d.name = c.name)
    (howner : d.queue.connection = c.queue.connection)
    (hnumbered : d.queue.lastSequence = c.queue.lastSequence)
    (hpending : c.queue.pending = endings.map Ending.queued ++ d.queue.pending)
    (hevents : d.events = c.events ++ news)
    (hnotices : d.queue.notices = c.queue.notices ++ Ending.notices endings)
    (hreported : news.filterMap Event.completion? = endings.map Ending.completion)
    (hopen : c.isClosed = false) (hopen' : d.isClosed = false)
    (hnews : ∀ e ∈ news, e.isEnd = false) : Advances c endings news d where
  forward := hforward
  id := hid
  name := hname
  owner := howner
  numbered := hnumbered
  pending := hpending
  events := hevents
  notices := hnotices
  reported := hreported
  finished := fun h => by rw [hopen] at h; cases h
  going := fun _ => hnews
  ends := fun _ h => by rw [hopen'] at h; cases h

theorem Advances.isClosed_of {c d : Connection τ} {endings : List Ending} {news : List Event}
    (h : Advances c endings news d) (hclosed : c.isClosed = true) : d.isClosed = true := by
  have hforward := h.forward
  unfold isClosed at hclosed ⊢
  rw [beq_iff_eq.1 hclosed] at hforward
  cases hs : d.state <;> simp [hs, ConnState.rank] at hforward ⊢

/-- **The end.** Whatever was still to be done fails, and then the end is announced. -/
theorem advances_finishClose {c : Connection τ} (hopen : c.isClosed = false)
    (reason : CloseReason) : Advances c
      (c.queue.pending.map (CommandQueue.lost connectionLost (-4)))
      (lostEvents c.queue.pending ++ [.connectionClosed c.id c.name reason])
      (c.finishClose reason) := by
  obtain ⟨hcompletions, stats, hqueue⟩ := CommandQueue.failAll_eq connectionLost (-4) c.queue
  have hlost : lostEvents c.queue.pending =
      (c.queue.failAll connectionLost (-4)).1.map Event.commandFailed := by
    rw [hcompletions, lostEvents, List.map_map]
    rfl
  have hempty : (c.finishClose reason).queue.pending = [] := by
    simp [finishClose, hqueue, CommandQueue.pending]
  refine ⟨?_, rfl, rfl, ?_, ?_, ?_, ?_, ?_, ?_, ?_, ?_, ?_⟩
  · show c.state.rank ≤ 3
    cases c.state <;> simp [ConnState.rank]
  · simp [finishClose, hqueue]
  · simp [finishClose, hqueue]
  · rw [hempty, List.append_nil, List.map_map]
    exact (List.map_id _).symm
  · rw [hlost, ← List.append_assoc]
    rfl
  · simp [finishClose, hqueue]
  · rw [List.filterMap_append, completion?_lostEvents, List.map_map, List.filterMap_cons,
      List.filterMap_nil]
    exact List.append_nil _
  · intro h
    rw [hopen] at h
    cases h
  · intro h
    cases h
  · intro _ _
    refine ⟨hempty, [], [], c.queue.pending, reason, rfl, rfl, by simp, rfl⟩

theorem Does.advances {c d : Connection τ} {a : Act} (h : Does c a d) (hown : a.isOwn = true)
    (hc : Linked c) : ∃ endings news, Advances c endings news d := by
  cases h with
  | push v =>
    rw [sendValue_eq]
    exact ⟨[], [], .of_same rfl rfl rfl rfl rfl⟩
  | tell _ => exact ⟨[], [], .of_same rfl rfl rfl rfl rfl⟩
  | answer _ _ => exact ⟨[], [], .of_same rfl rfl rfl rfl rfl⟩
  | flush _ => exact ⟨[], [], .of_same rfl rfl rfl rfl rfl⟩
  | arrive _ _ => exact ⟨[], [], .of_same rfl rfl rfl rfl rfl⟩
  | adjust h => exact ⟨[], [], .of_same h.state h.id h.name h.queue h.events⟩
  | accept _ _ => cases hown
  | refuse _ => cases hown
  | @note e he hopen =>
    refine ⟨[], [e], .of_open (Nat.le_refl _) rfl rfl rfl rfl rfl rfl ?_ ?_ hopen hopen ?_⟩
    · simp [emit]
    · simp [Event.completion?_of_isNote he]
    · simpa using Event.isEnd_of_isNote he
  | @start q rest hup hnone hwaiting =>
    have hopen : c.isClosed = false := by
      simp only [isEstablished, beq_iff_eq] at hup
      simp [isClosed, hup]
    refine ⟨[], [], .of_open (Nat.le_refl _) rfl rfl rfl rfl ?_ ?_ ?_ rfl hopen hopen (by simp)⟩
    · exact (CommandQueue.pending_of_startNext hnone hwaiting).symm
    · exact (List.append_nil _).symm
    · exact (List.append_nil _).symm
  | @complete q hq hopen outcome code =>
    have hqueue := CommandQueue.complete_eq hq outcome code
    refine ⟨[⟨q, outcome, code⟩], [(q.complete outcome code).event],
      .of_open (Nat.le_refl _) rfl rfl ?_ ?_ ?_ rfl ?_ ?_ hopen hopen ?_⟩
    · simp [emit, hqueue]
    · simp [emit, hqueue]
    · simp [emit, hqueue, CommandQueue.pending, hq]
    · simp [emit, hqueue]
    · simp [Ending.completion]
    · simp
  | @requeue q hq hopen hroom =>
    have hqueue := CommandQueue.requeue_eq hq hroom
    refine ⟨[], [], .of_open (Nat.le_refl _) rfl rfl ?_ ?_ ?_ ?_ ?_ rfl hopen hopen (by simp)⟩
    · simp [hqueue]
    · simp [hqueue]
    · simp [CommandQueue.pending_of_requeue hq hroom]
    · simp
    · simp [hqueue]
  | connect hlink h =>
    subst h
    have hstate := hc.connecting _ hlink
    refine ⟨[], [], .of_open ?_ rfl rfl rfl rfl rfl ?_ ?_ rfl ?_ rfl (by simp)⟩
    · simp [hstate, ConnState.rank]
    · exact (List.append_nil _).symm
    · exact (List.append_nil _).symm
    · simp [isClosed, hstate]
  | drain hopen _ =>
    refine ⟨[], [], .of_open ?_ rfl rfl rfl rfl rfl ?_ ?_ rfl hopen rfl (by simp)⟩
    · unfold isClosed at hopen
      cases hs : c.state <;> simp [hs, ConnState.rank] at hopen ⊢
    · exact (List.append_nil _).symm
    · exact (List.append_nil _).symm
  | close hopen reason => exact ⟨_, _, advances_finishClose hopen reason⟩

/-! ## Sequences of acts -/

theorem Advances.refl (c : Connection τ) : Advances c [] [] c := .of_same rfl rfl rfl rfl rfl

theorem Advances.trans {c d e : Connection τ} {es fs : List Ending} {ms ns : List Event}
    (h : Advances c es ms d) (h' : Advances d fs ns e) : Advances c (es ++ fs) (ms ++ ns) e where
  forward := Nat.le_trans h.forward h'.forward
  id := h'.id.trans h.id
  name := h'.name.trans h.name
  owner := h'.owner.trans h.owner
  numbered := h'.numbered.trans h.numbered
  pending := by rw [h.pending, h'.pending, List.map_append, List.append_assoc]
  events := by rw [h'.events, h.events, List.append_assoc]
  notices := by rw [h'.notices, h.notices, Ending.notices_append, List.append_assoc]
  reported := by rw [List.filterMap_append, h.reported, h'.reported, List.map_append]
  finished := fun hclosed => by
    have hd : d.isClosed = true := h.isClosed_of hclosed
    rw [(h.finished hclosed).1, (h.finished hclosed).2, (h'.finished hd).1, (h'.finished hd).2]
    exact ⟨rfl, rfl⟩
  going := fun hopen e he => by
    have hd : d.isClosed = false := by
      rw [← Bool.not_eq_true]
      intro hd
      rw [h'.isClosed_of hd] at hopen
      cases hopen
    rcases List.mem_append.1 he with he | he
    · exact h.going hd e he
    · exact h'.going hopen e he
  ends := fun hopen hclosed => by
    cases hd : d.isClosed with
    | true =>
      obtain ⟨hempty, mid, done, lost, reason, hnews, hendings, hmid, hreported⟩ := h.ends hopen hd
      obtain ⟨hfs, hns⟩ := h'.finished hd
      have hpending := h'.pending
      rw [hfs, hempty] at hpending
      refine ⟨hpending.symm, mid, done, lost, reason, ?_, ?_, hmid, hreported⟩
      · rw [hns, List.append_nil, hnews, h'.id, h'.name]
      · rw [hfs, List.append_nil, hendings]
    | false =>
      obtain ⟨hempty, mid, done, lost, reason, hnews, hendings, hmid, hreported⟩ :=
        h'.ends hd hclosed
      refine ⟨hempty, ms ++ mid, es ++ done, lost, reason, ?_, ?_, ?_, ?_⟩
      · rw [hnews]
        simp only [List.append_assoc]
      · rw [hendings, List.append_assoc]
      · intro x hx
        rcases List.mem_append.1 hx with hx | hx
        · exact h.going hd x hx
        · exact hmid x hx
      · rw [List.filterMap_append, h.reported, hreported, List.map_append]

theorem Proceeds.advances {c d : Connection τ} (h : Proceeds c d) (hc : Linked c) :
    ∃ endings news, Advances c endings news d := by
  obtain ⟨acts, h, hown⟩ := h
  induction h with
  | nil => exact ⟨[], [], .refl _⟩
  | cons hd _ ih =>
    obtain ⟨es, ms, has⟩ := hd.advances (hown _ List.mem_cons_self) hc
    obtain ⟨fs, ns, hbs⟩ := ih (hd.linked hc) fun a ha => hown a (List.mem_cons_of_mem _ ha)
    exact ⟨_, _, has.trans hbs⟩

end Connection

/-! ## A life -/

/-- A connection with what was made of it so far: the commands it took in, and the events and the
reports that were collected. -/
structure Life (τ : Type) where
  conn : Connection τ
  accepted : List Queued := []
  told : List Event := []
  heard : List Completion := []

namespace Life

variable {τ : Type}

/-- Everything the connection ever emitted. -/
def events (l : Life τ) : List Event := l.told ++ l.conn.events

/-- Every outcome that somebody waiting for it was ever told. -/
def notices (l : Life τ) : List Completion := l.heard ++ l.conn.queue.notices

/-- Every report on a command. -/
def completions (l : Life τ) : List Completion := l.events.filterMap Event.completion?

/-- One operation. -/
inductive Step : Life τ → Life τ → Prop
  | queue {l : Life τ} {urgent : Bool} {command : Command} {handle : CommandHandle}
    {c : Connection τ} (h : l.conn.queueCommand urgent command = (.ok handle, c)) :
    Step l { l with conn := c, accepted := l.accepted ++ [⟨handle, command⟩] }
  | refuse {l : Life τ} {urgent : Bool} {command : Command} {e : LinkError} {c : Connection τ}
    (h : l.conn.queueCommand urgent command = (.error e, c)) : Step l { l with conn := c }
  | receive {l : Life τ} {σ : Type} (dev : Device σ) (own : Local σ) (now : Instant)
    (bytes : Bytes) :
    Step l { l with conn := (Connection.receive dev now bytes ⟨l.conn, own⟩).conn }
  | idle {l : Life τ} (now : Instant) : Step l { l with conn := l.conn.idle now }
  | pollConnect {l : Life τ} (answer : Connection.ConnectAnswer τ) (now : Instant) :
    Step l { l with conn := (l.conn.pollConnect answer now).2 }
  | read {l : Life τ} {σ : Type} (T : Transport τ) (dev : Device σ) (own : Local σ)
    (now : Instant) : Step l { l with conn := (Connection.readPass T dev now ⟨l.conn, own⟩).2.conn }
  | write {l : Life τ} (T : Transport τ) : Step l { l with conn := (l.conn.writePass T).2 }
  | close {l : Life τ} (reason : CloseReason) : Step l { l with conn := l.conn.close reason }
  | push {l : Life τ} (v : Value) : Step l { l with conn := l.conn.sendValue v }
  /-- Events and reports are collected. -/
  | collect {l : Life τ} : Step l
    { l with
      conn := { l.conn.takeEvents.2 with queue := l.conn.takeEvents.2.queue.takeNotices.2 }
      told := l.told ++ l.conn.events
      heard := l.heard ++ l.conn.queue.notices }

/-- What is true of the books at any time. -/
structure Orderly (l : Life τ) : Prop where
  /-- No two commands have the same handle. -/
  distinct : (l.accepted.map Queued.handle).Nodup
  /-- Every report is about a command that was taken in. -/
  known : ∀ x ∈ l.completions, ∃ q ∈ l.accepted, ∃ outcome code, x = q.complete outcome code
  atMostOnce : ∀ q ∈ l.accepted, l.completions.countP (fun x => x.handle = q.handle) ≤ 1
  onceClosed : l.conn.isClosed = true →
    ∀ q ∈ l.accepted, l.completions.countP (fun x => x.handle = q.handle) = 1
  /-- Those who wait for a command are told what the event says, and nobody else is told. -/
  heardAsTold : ∀ q ∈ l.accepted, l.notices.filter (fun x => x.handle = q.handle) =
    if q.command.tracked then l.completions.filter (fun x => x.handle = q.handle) else []
  notEnded : l.conn.isClosed = false → ∀ e ∈ l.events, e.isEnd = false
  /-- The end is the last event. -/
  ended : l.conn.isClosed = true → ∃ before reason,
    l.events = before ++ [.connectionClosed l.conn.id l.conn.name reason] ∧
      ∀ e ∈ before, e.isEnd = false

/-- What one operation may do to the books. -/
structure Follows (l l' : Life τ) : Prop where
  forward : l.conn.state.rank ≤ l'.conn.state.rank
  silent : l.conn.isClosed = true → l'.events = l.events
  /-- At the end, what was still to be done fails, the command in flight first and then those that
  wait, in their order. -/
  closing : l.conn.isClosed = false → l'.conn.isClosed = true →
    ∃ (mid : List Event) (done : List Ending) (lost : List Queued) (reason : CloseReason),
      l.conn.queue.pending = done.map Ending.queued ++ lost ∧
      l'.events = l.events ++ mid ++ Connection.lostEvents lost ++
        [.connectionClosed l'.conn.id l'.conn.name reason] ∧
      (∀ e ∈ mid, e.isEnd = false) ∧
      mid.filterMap Event.completion? = done.map Ending.completion

/-! ## The books -/

/-- The books of a life: every command taken in either ended, and was reported, or is still to be
done. -/
structure Kept (l : Life τ) : Prop where
  linked : Connection.Linked l.conn
  helper : l.conn.helper = none
  numbered : ∀ q ∈ l.accepted, q.handle.sequence ≤ l.conn.queue.lastSequence
  distinct : (l.accepted.map Queued.handle).Nodup
  ledger : ∃ endings : List Ending, l.completions = endings.map Ending.completion ∧
    l.notices = Ending.notices endings ∧
    (endings.map Ending.queued ++ l.conn.queue.pending).Perm l.accepted
  notEnded : l.conn.isClosed = false → ∀ e ∈ l.events, e.isEnd = false
  ended : l.conn.isClosed = true → l.conn.queue.pending = [] ∧ ∃ before reason,
    l.events = before ++ [.connectionClosed l.conn.id l.conn.name reason] ∧
      ∀ e ∈ before, e.isEnd = false

theorem kept_of_isNew {c : Connection τ} (h : Connection.IsNew c) : Kept { conn := c } where
  linked := h.linked
  helper := h.helper
  numbered := by simp
  distinct := by simp
  ledger := ⟨[], by simp [completions, events, h.events], by simp [notices, h.queue],
    by simp [h.queue, CommandQueue.pending]⟩
  notEnded := by simp [events, h.events]
  ended := fun hclosed => by
    rcases h.origin with ⟨hs, -⟩ | ⟨hs, -⟩ <;> simp [Connection.isClosed, hs] at hclosed

theorem events_of_advances {l : Life τ} {d : Connection τ} {endings : List Ending}
    {news : List Event} (hd : Connection.Advances l.conn endings news d) :
    Life.events { l with conn := d } = l.events ++ news := by
  simp [events, hd.events]

theorem follows_of_advances {l : Life τ} {d : Connection τ} {endings : List Ending}
    {news : List Event} (hd : Connection.Advances l.conn endings news d) :
    Follows l { l with conn := d } := by
  have hevents := events_of_advances hd
  refine ⟨hd.forward, fun hclosed => ?_, fun hopen hclosed => ?_⟩
  · rw [hevents, (hd.finished hclosed).2, List.append_nil]
  · obtain ⟨hempty, mid, done, lost, reason, hnews, hendings, hmid, hreported⟩ :=
      hd.ends hopen hclosed
    refine ⟨mid, done, lost, reason, ?_, ?_, hmid, hreported⟩
    · rw [hd.pending, hempty, hendings, List.map_append, List.map_map, List.append_nil]
      congr 1
      exact List.map_id _
    · rw [hevents, hnews]
      simp only [List.append_assoc]

/-- The end is the last event, whether it came before or comes now. -/
theorem Kept.ended_of_advances {l : Life τ} (h : Kept l) {d : Connection τ}
    {endings : List Ending} {news : List Event}
    (hd : Connection.Advances l.conn endings news d) (hclosed : d.isClosed = true) :
    d.queue.pending = [] ∧ ∃ before reason,
      Life.events { l with conn := d } = before ++ [.connectionClosed d.id d.name reason] ∧
        ∀ e ∈ before, e.isEnd = false := by
  have hevents := events_of_advances hd
  cases hopen : l.conn.isClosed with
  | true =>
    obtain ⟨hempty, pre, reason, hpre, hnone⟩ := h.ended hopen
    obtain ⟨hendings, hnews⟩ := hd.finished hopen
    have hpending := hd.pending
    rw [hendings, hempty] at hpending
    refine ⟨hpending.symm, pre, reason, ?_, hnone⟩
    rw [hevents, hnews, List.append_nil, hpre, hd.id, hd.name]
  | false =>
    obtain ⟨hempty, mid, done, lost, reason, hnews, -, hmid, -⟩ := hd.ends hopen hclosed
    refine ⟨hempty, l.events ++ mid ++ Connection.lostEvents lost, reason, ?_, ?_⟩
    · rw [hevents, hnews]
      simp only [List.append_assoc]
    · intro e he
      simp only [List.mem_append] at he
      rcases he with (he | he) | he
      · exact h.notEnded hopen e he
      · exact hmid e he
      · obtain ⟨q, -, rfl⟩ := List.mem_map.1 he
        rfl

/-- Acts of the connection's own keep the books. -/
theorem Kept.advance {l : Life τ} (h : Kept l) {d : Connection τ} {endings : List Ending}
    {news : List Event} (hd : Connection.Advances l.conn endings news d)
    (hlinked : Connection.Linked d) (hhelper : d.helper = none) :
    Kept { l with conn := d } ∧ Follows l { l with conn := d } := by
  have hevents := events_of_advances hd
  obtain ⟨before, hcompletions, hnotices, hperm⟩ := h.ledger
  refine ⟨?_, follows_of_advances hd⟩
  refine ⟨hlinked, hhelper, ?_, h.distinct, ⟨before ++ endings, ?_, ?_, ?_⟩, ?_,
    h.ended_of_advances hd⟩
  · intro q hq
    rw [hd.numbered]
    exact h.numbered q hq
  · rw [completions, hevents, List.filterMap_append, hd.reported, List.map_append,
      ← hcompletions, completions]
  · rw [Ending.notices_append, ← hnotices]
    simp [notices, hd.notices]
  · rw [List.map_append, List.append_assoc, ← hd.pending]
    exact hperm
  · intro hopen e he
    have hopen' : l.conn.isClosed = false := by
      rw [← Bool.not_eq_true]
      intro hclosed
      rw [hd.isClosed_of hclosed] at hopen
      cases hopen
    rw [hevents] at he
    rcases List.mem_append.1 he with he | he
    · exact h.notEnded hopen' e he
    · exact hd.going hopen e he

theorem Kept.proceed {l : Life τ} (h : Kept l) {d : Connection τ}
    (hd : Connection.Proceeds l.conn d) :
    Kept { l with conn := d } ∧ Follows l { l with conn := d } := by
  obtain ⟨endings, news, hadvances⟩ := hd.advances h.linked
  obtain ⟨acts, hperforms, -⟩ := hd
  exact h.advance hadvances (hperforms.linked h.linked) (hperforms.helper h.helper)

/-- A command that is taken in has a new handle and waits. -/
theorem Kept.accept {l : Life τ} (h : Kept l) {urgent : Bool} {command : Command}
    {handle : CommandHandle} {d : Connection τ}
    (hd : Connection.Does l.conn (.accept urgent ⟨handle, command⟩) d) :
    Kept { l with conn := d, accepted := l.accepted ++ [⟨handle, command⟩] } := by
  have hlinked := hd.linked h.linked
  have hhelper := hd.helper h.helper
  cases hd with
  | accept hopen hinsert =>
    obtain ⟨hhandle, -, hnumber, -, hnotices, -⟩ := CommandQueue.insert_eq_some hinsert
    obtain ⟨endings, hcompletions, hheard, hperm⟩ := h.ledger
    refine ⟨hlinked, hhelper, ?_, ?_, ⟨endings, hcompletions, ?_, ?_⟩, h.notEnded, ?_⟩
    · intro q hq
      show q.handle.sequence ≤ _
      rw [hnumber]
      rcases List.mem_append.1 hq with hq | hq
      · exact Nat.le_succ_of_le (h.numbered q hq)
      · rw [List.mem_singleton.1 hq]
        exact Nat.le_of_eq (congrArg CommandHandle.sequence hhandle)
    · rw [List.map_append, List.nodup_append]
      refine ⟨h.distinct, by simp, ?_⟩
      rintro a ha b hb rfl
      obtain ⟨q, hq, rfl⟩ := List.mem_map.1 ha
      have hle := h.numbered q hq
      simp only [List.map_cons, List.map_nil, List.mem_singleton] at hb
      rw [hb, hhandle] at hle
      exact absurd hle (by simp)
    · rw [← hheard]
      simp [notices, hnotices]
    · have hpending := CommandQueue.insert_pending hinsert
      refine ((hpending.append_left _).trans ?_)
      exact (List.perm_middle.trans (hperm.cons _)).trans (List.perm_append_singleton _ _).symm
    · intro hclosed
      rw [show Connection.isClosed l.conn = true from hclosed] at hopen
      cases hopen

theorem Kept.refuse {l : Life τ} (h : Kept l) {d : Connection τ}
    (hd : Connection.Does l.conn .refuse d) : Kept { l with conn := d } := by
  have hlinked := hd.linked h.linked
  have hhelper := hd.helper h.helper
  cases hd with
  | refuse hopen =>
    exact ⟨hlinked, hhelper, fun q hq => Nat.le_succ_of_le (h.numbered q hq), h.distinct, h.ledger,
      h.notEnded, h.ended⟩

theorem Follows.of_same {l l' : Life τ} (hstate : l'.conn.state = l.conn.state)
    (hevents : l'.events = l.events) : Follows l l' := by
  refine ⟨Nat.le_of_eq (by rw [hstate]), fun _ => hevents, fun hopen hclosed => ?_⟩
  unfold Connection.isClosed at hopen hclosed
  rw [hstate, hopen] at hclosed
  cases hclosed

theorem Kept.collect {l : Life τ} (h : Kept l) : Kept { l with
    conn := { l.conn.takeEvents.2 with queue := l.conn.takeEvents.2.queue.takeNotices.2 }
    told := l.told ++ l.conn.events
    heard := l.heard ++ l.conn.queue.notices } := by
  obtain ⟨endings, hcompletions, hnotices, hperm⟩ := h.ledger
  have hevents (cs : List Event) : cs ++ [] = cs := List.append_nil cs
  refine ⟨{ h.linked with }, h.helper, h.numbered, h.distinct, ⟨endings, ?_, ?_, hperm⟩, ?_, ?_⟩
  · rw [← hcompletions]
    exact congrArg (List.filterMap Event.completion?) (hevents _)
  · rw [← hnotices]
    exact List.append_nil _
  · intro hopen e he
    exact h.notEnded hopen e ((hevents l.events) ▸ he)
  · intro hclosed
    obtain ⟨hempty, before, reason, hbefore, hnone⟩ := h.ended hclosed
    exact ⟨hempty, before, reason, (hevents l.events).trans hbefore, hnone⟩

/-- **One operation** keeps the books. -/
theorem Step.kept {l l' : Life τ} (hstep : Step l l') (h : Kept l) :
    Kept l' ∧ Follows l l' := by
  cases hstep with
  | @queue urgent command handle c hqueue =>
    rcases Connection.performs_queueCommand urgent command l.conn with
      ⟨e, he⟩ | ⟨e, d, -, he⟩ | ⟨handle', d, hd, he⟩
    · rw [he] at hqueue
      cases hqueue
    · rw [he] at hqueue
      cases hqueue
    · rw [he] at hqueue
      cases hqueue
      refine ⟨((h.accept hd).proceed (Connection.proceeds_pump d)).1, ?_⟩
      cases hd with
      | accept _ _ =>
        exact .of_same (Connection.pump_state _) (congrArg (l.told ++ ·) (Connection.pump_events _))
  | @refuse urgent command e c hqueue =>
    rcases Connection.performs_queueCommand urgent command l.conn with
      ⟨e, he⟩ | ⟨e, d, hd, he⟩ | ⟨handle', d, -, he⟩
    · rw [he] at hqueue
      cases hqueue
      exact ⟨h, .of_same rfl rfl⟩
    · rw [he] at hqueue
      cases hqueue
      refine ⟨h.refuse hd, ?_⟩
      cases hd with
      | refuse _ => exact .of_same rfl rfl
    · rw [he] at hqueue
      cases hqueue
  | receive dev own now bytes =>
    exact h.proceed (Connection.proceeds_receive dev now bytes ⟨l.conn, own⟩)
  | idle now => exact h.proceed (Connection.proceeds_idle now h.helper)
  | pollConnect answer now => exact h.proceed (Connection.proceeds_pollConnect answer now h.linked)
  | read T dev own now => exact h.proceed (Connection.proceeds_readPass T dev now ⟨l.conn, own⟩)
  | write T => exact h.proceed (Connection.proceeds_writePass T h.linked)
  | close reason => exact h.proceed (Connection.proceeds_close reason _)
  | push v => exact h.proceed ((Connection.Does.push v).proceeds rfl)
  | collect => exact ⟨h.collect, .of_same rfl (List.append_nil _)⟩

theorem kept_of_run {c : Connection τ} {l : Life τ} (hnew : Connection.IsNew c)
    (hrun : Relation.ReflTransGen Step { conn := c } l) : Kept l := by
  induction hrun with
  | refl => exact kept_of_isNew hnew
  | tail _ hstep ih => exact (hstep.kept ih).1

/-! ## What the books say -/

theorem countP_completions (h : CommandHandle) (endings : List Ending) :
    (endings.map Ending.completion).countP (fun x => x.handle = h) =
      (endings.map (·.queued.handle)).count h := by
  induction endings with
  | nil => rfl
  | cons e es ih =>
    rw [List.map_cons, List.map_cons, List.countP_cons, List.count_cons, ih]
    rfl

theorem Kept.orderly {l : Life τ} (h : Kept l) : Orderly l := by
  obtain ⟨endings, hcompletions, hnotices, hperm⟩ := h.ledger
  have hhandles :
      (endings.map (·.queued.handle) ++ l.conn.queue.pending.map Queued.handle).Nodup := by
    have hmap := (hperm.map Queued.handle).nodup_iff.2 h.distinct
    rwa [List.map_append, List.map_map] at hmap
  have hmem (q : Queued) (hq : q ∈ l.accepted) :
      q.handle ∈ endings.map (·.queued.handle) ++ l.conn.queue.pending.map Queued.handle := by
    have hmap := (hperm.map Queued.handle).mem_iff.2 (List.mem_map_of_mem hq)
    rwa [List.map_append, List.map_map] at hmap
  have hdone (e : Ending) (he : e ∈ endings) : e.queued ∈ l.accepted :=
    hperm.mem_iff.1 (List.mem_append_left _ (List.mem_map_of_mem he))
  refine ⟨h.distinct, ?_, ?_, ?_, ?_, h.notEnded, fun hclosed => (h.ended hclosed).2⟩
  · intro x hx
    rw [hcompletions] at hx
    obtain ⟨e, he, rfl⟩ := List.mem_map.1 hx
    exact ⟨e.queued, hdone e he, e.outcome, e.code, rfl⟩
  · intro q _
    rw [hcompletions, countP_completions]
    exact List.nodup_iff_count_le_one.1 (List.nodup_append.1 hhandles).1 _
  · intro hclosed q hq
    have hin := hmem q hq
    rw [(h.ended hclosed).1, List.map_nil, List.append_nil] at hin
    rw [hcompletions, countP_completions]
    exact List.count_eq_one_of_mem (List.nodup_append.1 hhandles).1 hin
  · intro q hq
    have hsame (e : Ending) (he : e ∈ endings) (heq : e.queued.handle = q.handle) :
        e.queued = q := List.inj_on_of_nodup_map h.distinct (hdone e he) hq heq
    rw [hcompletions, hnotices, Ending.notices, List.filter_map, List.filter_map,
      List.filter_filter]
    split
    · next htracked =>
      congr 1
      refine List.filter_congr fun e he => ?_
      by_cases heq : e.queued.handle = q.handle
      · simp [Ending.completion, Queued.complete, hsame e he heq, htracked]
      · simp [Ending.completion, Queued.complete, heq]
    · next htracked =>
      rw [List.map_eq_nil_iff, List.filter_eq_nil_iff]
      intro e he
      by_cases heq : e.queued.handle = q.handle
      · simp [hsame e he heq, htracked]
      · simp [Ending.completion, Queued.complete, heq]

end Life

/-- **Every run.** The books are in order at any time, and every operation goes forward. -/
theorem life_orderly {τ : Type} {c : Connection τ} {l : Life τ} (hnew : Connection.IsNew c)
    (hrun : Relation.ReflTransGen Life.Step { conn := c } l) :
    l.Orderly ∧ ∀ l', Life.Step l l' → Life.Follows l l' := by
  have h := Life.kept_of_run hnew hrun
  exact ⟨h.orderly, fun l' hstep => (hstep.kept h).2⟩

/-- A command that waits for its reply when its connection is closed fails once. -/
theorem life_orderly_of_close : ∃ l : Life Unit,
    Relation.ReflTransGen Life.Step { conn := Connection.inMemory 1 .client "peer" 0 } l ∧
      l.conn.isClosed = true ∧ l.accepted.length = 1 ∧ l.Orderly := by
  have hqueue : Life.Step ({ conn := Connection.inMemory 1 .client "peer" 0 } : Life Unit) _ :=
    .queue (show Connection.queueCommand false { opcode := "info" } _ = _ from rfl)
  have hrun := (Relation.ReflTransGen.single hqueue).tail (.close .requested)
  exact ⟨_, hrun, rfl, rfl, (life_orderly (Connection.isNew_inMemory 1 .client "peer" 0) hrun).1⟩

end Observatory
