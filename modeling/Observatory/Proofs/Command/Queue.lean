import Observatory.Command.Queue
/-!
# Operations of a command queue

What each operation does to the commands that are not done, to the numbering and to the reports
that nobody has taken.

* `insert_of_full`, `insert_of_room`, `requeue_cases` — what a full queue refuses.
* `pending_of_startNext`, `pending_of_requeue` — starting and putting back change no order.
* `complete_eq`, `failAll_eq` — commands are done from the front.
-/

namespace Observatory

/-- A command together with how it ended. -/
structure Ending where
  queued : Queued
  outcome : Outcome
  code : Int32

namespace Ending

/-- The report on a command that is done. -/
def completion (e : Ending) : Completion := e.queued.complete e.outcome e.code

/-- The reports that somebody waits for. -/
def notices (endings : List Ending) : List Completion :=
  (endings.filter (·.queued.command.tracked)).map completion

@[simp] theorem notices_nil : notices [] = [] := rfl

@[simp] theorem notices_append (a b : List Ending) : notices (a ++ b) = notices a ++ notices b := by
  simp [notices]

theorem notices_cons (e : Ending) (es : List Ending) : notices (e :: es) =
    (if e.queued.command.tracked then [e.completion] else []) ++ notices es := by
  unfold notices
  by_cases h : e.queued.command.tracked = true <;> simp [h]

end Ending

namespace CommandQueue

/-! ## Taking commands in -/

theorem isFull_eq_true_iff (q : CommandQueue) : q.isFull = true ↔ capacity ≤ q.waiting.length := by
  simp [isFull]

theorem isFull_eq_false_iff (q : CommandQueue) :
    q.isFull = false ↔ q.waiting.length < capacity := by
  simp [isFull]

/-- A full queue uses up a name and takes nothing in. -/
theorem insert_of_full {q : CommandQueue} (h : q.isFull = true) (urgent : Bool)
    (command : Command) : q.insert urgent command =
      (none, { q with lastSequence := q.lastSequence + 1 }) := by
  unfold insert wrap
  dsimp only
  exact if_pos h

/-- Any other queue takes the command in, under a new name. -/
theorem insert_of_room {q : CommandQueue} (h : q.isFull = false) (urgent : Bool)
    (command : Command) : q.insert urgent command =
      (some ⟨q.connection, q.lastSequence + 1⟩, { q with
        lastSequence := q.lastSequence + 1
        waiting := if urgent then ⟨⟨q.connection, q.lastSequence + 1⟩, command⟩ :: q.waiting
          else q.waiting ++ [⟨⟨q.connection, q.lastSequence + 1⟩, command⟩]
        stats := { q.stats with queued := q.stats.queued + 1 } }) := by
  unfold insert wrap
  dsimp only
  exact if_neg (by simpa [isFull] using h)

/-- What taking a command in does, when there is room. -/
theorem insert_eq_some {urgent : Bool} {command : Command} {q queue : CommandQueue}
    {handle : CommandHandle} (h : q.insert urgent command = (some handle, queue)) :
    handle = ⟨q.connection, q.lastSequence + 1⟩ ∧ queue.connection = q.connection ∧
      queue.lastSequence = q.lastSequence + 1 ∧ queue.inFlight = q.inFlight ∧
      queue.notices = q.notices ∧
      queue.waiting = if urgent then ⟨handle, command⟩ :: q.waiting
        else q.waiting ++ [⟨handle, command⟩] := by
  unfold insert wrap at h
  dsimp only at h
  split at h
  · cases h
  · obtain ⟨h1, h2⟩ := Prod.mk.inj h
    cases h1
    cases h2
    exact ⟨rfl, rfl, rfl, rfl, rfl, rfl⟩

theorem insert_pending {urgent : Bool} {command : Command} {q queue : CommandQueue}
    {handle : CommandHandle} (h : q.insert urgent command = (some handle, queue)) :
    queue.pending.Perm (⟨handle, command⟩ :: q.pending) := by
  obtain ⟨-, -, -, hflight, -, hwaiting⟩ := insert_eq_some h
  rw [pending, pending, hflight, hwaiting]
  split
  · exact List.perm_middle
  · rw [← List.append_assoc]
    exact List.perm_append_singleton _ _

/-! ## Moving commands -/

theorem pending_of_startNext {q : CommandQueue} {queued : Queued} {rest : List Queued}
    (hnone : q.inFlight = none) (hwaiting : q.waiting = queued :: rest) :
    CommandQueue.pending { q with inFlight := some queued, waiting := rest } = q.pending := by
  simp [pending, hnone, hwaiting]

theorem requeue_eq {q : CommandQueue} {queued : Queued} (hq : q.inFlight = some queued)
    (hroom : q.isFull = false) : q.requeue.2 = { q with
      inFlight := none
      waiting := queued :: q.waiting
      stats := { q.stats with requeued := q.stats.requeued + 1 } } := by
  unfold requeue
  simp only [hq, hroom, Bool.false_eq_true, if_false]

/-- A full queue leaves the command in flight. -/
theorem requeue_of_full {q : CommandQueue} (h : q.isFull = true) : q.requeue.2 = q := by
  unfold requeue
  split
  · rfl
  · rw [if_pos h]

/-- Putting back changes nothing, or there is a command in flight and room for it. -/
theorem requeue_cases (q : CommandQueue) : q.requeue.2 = q ∨
    ∃ queued, q.inFlight = some queued ∧ q.isFull = false := by
  cases hfull : q.isFull with
  | true => exact .inl (requeue_of_full hfull)
  | false =>
    cases hq : q.inFlight with
    | none =>
      left
      unfold requeue
      rw [hq]
    | some queued => exact .inr ⟨queued, rfl, rfl⟩

theorem pending_of_requeue {q : CommandQueue} {queued : Queued} (hq : q.inFlight = some queued)
    (hroom : q.isFull = false) : q.requeue.2.pending = q.pending := by
  rw [requeue_eq hq hroom]
  simp [pending, hq]

/-! ## Ending commands -/

theorem finish_snd (queued : Queued) (outcome : Outcome) (code : Int32) (q : CommandQueue) :
    (q.finish queued outcome code).2 = { q with
      stats := count outcome q.stats
      notices := q.notices ++ Ending.notices [⟨queued, outcome, code⟩] } := by
  simp only [finish, Ending.notices_cons, Ending.notices_nil, List.append_nil]
  split <;> simp [Ending.completion]

theorem complete_eq {q : CommandQueue} {queued : Queued} (hq : q.inFlight = some queued)
    (outcome : Outcome) (code : Int32) : (q.complete outcome code).2 = { q with
      inFlight := none
      stats := count outcome q.stats
      notices := q.notices ++ Ending.notices [⟨queued, outcome, code⟩] } := by
  unfold complete
  rw [hq]
  exact finish_snd queued outcome code { q with inFlight := none }

/-- How a command ends that is lost with its connection. -/
def lost (reason : String) (code : Int32) (queued : Queued) : Ending :=
  ⟨queued, .failed reason, code⟩

theorem failEach_fst (reason : String) (code : Int32) (commands : List Queued) (q : CommandQueue) :
    (failEach reason code commands q).1 =
      commands.map fun queued => (lost reason code queued).completion := by
  induction commands generalizing q with
  | nil => rfl
  | cons queued rest ih =>
    rw [failEach]
    simp only [ih, List.map_cons]
    rfl

/-- Failing commands changes nothing but the statistics and the reports. -/
theorem failEach_snd (reason : String) (code : Int32) (commands : List Queued) (q : CommandQueue) :
    ∃ stats, (failEach reason code commands q).2 = { q with
      stats
      notices := q.notices ++ Ending.notices (commands.map (lost reason code)) } := by
  induction commands generalizing q with
  | nil => exact ⟨q.stats, by simp [failEach]⟩
  | cons queued rest ih =>
    obtain ⟨stats, h⟩ := ih (q.finish queued (.failed reason) code).2
    refine ⟨stats, ?_⟩
    have hcons : Ending.notices ((queued :: rest).map (lost reason code)) =
        Ending.notices [⟨queued, .failed reason, code⟩] ++
          Ending.notices (rest.map (lost reason code)) :=
      Ending.notices_append [⟨queued, .failed reason, code⟩] (rest.map (lost reason code))
    show (failEach reason code rest (q.finish queued (.failed reason) code).2).2 = _
    rw [h, finish_snd, hcons, ← List.append_assoc]

/-- Each of them counts as a failure. -/
theorem failEach_stats (reason : String) (code : Int32) (commands : List Queued)
    (q : CommandQueue) : (failEach reason code commands q).2.stats =
      { q.stats with failed := q.stats.failed + commands.length } := by
  induction commands generalizing q with
  | nil => rfl
  | cons queued rest ih =>
    show (failEach reason code rest (q.finish queued (.failed reason) code).2).2.stats = _
    rw [ih, finish_snd]
    simp [count, Outcome.isOk, Nat.add_assoc, Nat.add_comm 1]

/-- What failing every command does. -/
theorem failAll_eq (reason : String) (code : Int32) (q : CommandQueue) :
    (q.failAll reason code).1 =
      q.pending.map (fun queued => (lost reason code queued).completion) ∧
    ∃ stats, (q.failAll reason code).2 = { q with
      inFlight := none
      waiting := []
      stats
      notices := q.notices ++ Ending.notices (q.pending.map (lost reason code)) } := by
  unfold failAll
  exact ⟨failEach_fst _ _ _ _, failEach_snd _ _ _ _⟩

end CommandQueue

end Observatory
