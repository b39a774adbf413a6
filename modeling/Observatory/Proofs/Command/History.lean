import Mathlib.Data.List.Nodup
import Observatory.Proofs.Command.Queue
/-!
# Histories of a command queue

A queue takes commands in, sends them, puts them back and ends them, in any order and for as long
as one likes. Through all of that a command is in one place only: it waits, it is in flight, or it
was reported, once. Urgent commands overtake others, and putting back reaches over the whole queue,
but the commands that are not urgent never overtake one another.

* `Accounts` — the commands taken in are those reported and those pending; what is not urgent is
  even in the same order.
* `commands_conserved` — every history.
-/

namespace Observatory

/-- What a report says of its command: its name, its line and for whom it was issued. -/
def Completion.subject (c : Completion) : CommandHandle × String × Option String :=
  (c.handle, c.line, c.origin)

/-- What a report would say of the command. -/
def Queued.subject (q : Queued) : CommandHandle × String × Option String :=
  (q.handle, q.command.line, q.command.origin)

namespace CommandQueue

/-- What can be done with a queue. -/
inductive Operation where
  | insert (urgent : Bool) (command : Command)
  | startNext
  | complete (outcome : Outcome) (code : Int32)
  | requeue
  | failAll (reason : String) (code : Int32)

/-- A command that was taken in. -/
structure Entry where
  urgent : Bool
  queued : Queued

namespace Entry

/-- The name that was given to the command. -/
def handle (e : Entry) : CommandHandle := e.queued.handle

/-- Not urgent. -/
def isOrdinary (e : Entry) : Bool := !e.urgent

end Entry

/-- A queue, and what happened to it. -/
structure History where
  queue : CommandQueue
  /-- The commands taken in, in that order. -/
  taken : List Entry := []
  /-- The reports, in the order in which they were given. -/
  completions : List Completion := []

namespace History

/-- One operation. -/
def step (h : History) : Operation → History
  | .insert urgent command =>
    let r := h.queue.insert urgent command
    { h with queue := r.2, taken := h.taken ++ (r.1.map (Entry.mk urgent ⟨·, command⟩)).toList }
  | .startNext => { h with queue := h.queue.startNext.2 }
  | .complete outcome code =>
    let r := h.queue.complete outcome code
    { h with queue := r.2, completions := h.completions ++ r.1.toList }
  | .requeue => { h with queue := h.queue.requeue.2 }
  | .failAll reason code =>
    let r := h.queue.failAll reason code
    { h with queue := r.2, completions := h.completions ++ r.1 }

/-- A new queue of a connection, and then one operation after another. -/
def run (conn : ConnId) (operations : List Operation) : History :=
  operations.foldl step { queue := { connection := conn } }

end History

/-! ## Counting -/

theorem count_done (outcome : Outcome) (s : QueueStats) :
    (count outcome s).queued = s.queued ∧
      (count outcome s).ok + (count outcome s).failed = s.ok + s.failed + 1 := by
  unfold count
  split
  · exact ⟨rfl, by simp only; omega⟩
  · exact ⟨rfl, by simp only; omega⟩

/-- The statistics balance, and no more commands wait than may. -/
structure Counted (q : CommandQueue) : Prop where
  balance : q.stats.queued = q.stats.ok + q.stats.failed + q.size
  bounded : q.waiting.length ≤ capacity

theorem size_eq (q : CommandQueue) : q.size = q.inFlight.toList.length + q.waiting.length :=
  List.length_append

theorem Counted.insert {q : CommandQueue} (h : q.Counted) (urgent : Bool) (command : Command) :
    (q.insert urgent command).2.Counted := by
  obtain ⟨hbalance, hbounded⟩ := h
  cases hfull : q.isFull with
  | true =>
    rw [insert_of_full hfull]
    exact ⟨hbalance, hbounded⟩
  | false =>
    have hroom := (isFull_eq_false_iff q).1 hfull
    rw [insert_of_room hfull]
    rw [size_eq] at hbalance
    cases urgent with
    | true =>
      refine ⟨?_, hroom⟩
      simp only [size_eq, if_true, List.length_cons]
      omega
    | false =>
      refine ⟨?_, ?_⟩
      · simp only [size_eq, Bool.false_eq_true, if_false, List.length_append, List.length_singleton]
        omega
      · rw [if_neg Bool.false_ne_true, List.length_append, List.length_singleton]
        exact hroom

theorem Counted.startNext {q : CommandQueue} (h : q.Counted) : q.startNext.2.Counted := by
  unfold CommandQueue.startNext
  split
  · next queued rest hnone hwaiting =>
    obtain ⟨hbalance, hbounded⟩ := h
    rw [hwaiting, List.length_cons] at hbounded
    refine ⟨?_, by simp only; omega⟩
    rw [size, pending_of_startNext hnone hwaiting]
    exact hbalance
  · exact h

theorem Counted.complete {q : CommandQueue} (h : q.Counted) (outcome : Outcome) (code : Int32) :
    (q.complete outcome code).2.Counted := by
  cases hq : q.inFlight with
  | none =>
    unfold CommandQueue.complete
    rw [hq]
    exact h
  | some queued =>
    obtain ⟨hbalance, hbounded⟩ := h
    obtain ⟨hqueued, hdone⟩ := count_done outcome q.stats
    rw [complete_eq hq]
    refine ⟨?_, hbounded⟩
    rw [size_eq, hq] at hbalance
    simp only [size_eq, Option.toList_some, Option.toList_none, List.length_singleton,
      List.length_nil] at hbalance ⊢
    omega

theorem Counted.requeue {q : CommandQueue} (h : q.Counted) : q.requeue.2.Counted := by
  rcases requeue_cases q with hsame | ⟨queued, hq, hfull⟩
  · rw [hsame]
    exact h
  · have hroom := (isFull_eq_false_iff q).1 hfull
    have hsize : q.requeue.2.size = q.size := by rw [size, pending_of_requeue hq hfull, size]
    rw [requeue_eq hq hfull] at hsize ⊢
    exact ⟨by rw [hsize]; exact h.balance, hroom⟩

theorem Counted.failAll {q : CommandQueue} (h : q.Counted) (reason : String) (code : Int32) :
    (q.failAll reason code).2.Counted := by
  have hstats : (q.failAll reason code).2.stats =
      { q.stats with failed := q.stats.failed + q.size } := failEach_stats _ _ _ _
  obtain ⟨-, stats, hqueue⟩ := failAll_eq reason code q
  rw [hqueue] at hstats ⊢
  have hbalance := h.balance
  simp only at hstats
  subst hstats
  refine ⟨?_, by simp⟩
  show q.stats.queued = q.stats.ok + (q.stats.failed + q.size) + 0
  omega

/-- A command is turned away exactly by a full queue, and then only a name is used up. -/
theorem Counted.refusal {q : CommandQueue} (h : q.Counted) (urgent : Bool) (command : Command) :
    ((q.insert urgent command).1 = none ↔ q.waiting.length = 64) ∧
    ((q.insert urgent command).1 = none →
      (q.insert urgent command).2.waiting = q.waiting ∧
      (q.insert urgent command).2.inFlight = q.inFlight ∧
      (q.insert urgent command).2.stats = q.stats) := by
  have hbounded : q.waiting.length ≤ 64 := h.bounded
  cases hfull : q.isFull with
  | true =>
    have hlength : 64 ≤ q.waiting.length := (isFull_eq_true_iff q).1 hfull
    rw [insert_of_full hfull]
    exact ⟨⟨fun _ => Nat.le_antisymm hbounded hlength, fun _ => rfl⟩, fun _ => ⟨rfl, rfl, rfl⟩⟩
  | false =>
    have hlength : q.waiting.length ≠ 64 := Nat.ne_of_lt ((isFull_eq_false_iff q).1 hfull)
    rw [insert_of_room hfull]
    refine ⟨⟨fun hnone => ?_, fun hall => absurd hall hlength⟩, fun hnone => ?_⟩
    · cases hnone
    · cases hnone

/-! ## Accounting -/

namespace History

/-- No name is given twice, and the next one is new. -/
structure Numbered (h : History) : Prop where
  distinct : (h.taken.map Entry.handle).Nodup
  bound : ∀ e ∈ h.taken, e.handle.sequence ≤ h.queue.lastSequence

/-- The commands taken in are those that were reported and those that are pending. Those of them
that are not urgent are in the order in which they came. -/
structure Accounts (h : History) (done rest : List Entry) : Prop where
  pending : rest.map Entry.queued = h.queue.pending
  reported : h.completions.map Completion.subject = done.map fun e => e.queued.subject
  every : (done ++ rest).Perm h.taken
  order : (done ++ rest).filter Entry.isOrdinary = h.taken.filter Entry.isOrdinary

/-- What holds in every history. -/
structure Kept (h : History) : Prop where
  counted : h.queue.Counted
  numbered : h.Numbered
  accounts : ∃ done rest, h.Accounts done rest

theorem kept_new (conn : ConnId) : Kept { queue := { connection := conn } } where
  counted := ⟨rfl, Nat.zero_le _⟩
  numbered := ⟨List.nodup_nil, by simp⟩
  accounts := ⟨[], [], rfl, rfl, .refl _, rfl⟩

/-- A queue that only moved commands around. -/
theorem Kept.move {h : History} (hkept : Kept h) {queue : CommandQueue} (hcounted : queue.Counted)
    (hpending : queue.pending = h.queue.pending)
    (hlast : queue.lastSequence = h.queue.lastSequence) : Kept { h with queue } := by
  obtain ⟨done, rest, haccounts⟩ := hkept.accounts
  refine ⟨hcounted, ⟨hkept.numbered.distinct, fun e he => ?_⟩, done, rest, ?_⟩
  · rw [hlast]
    exact hkept.numbered.bound e he
  · exact { haccounts with pending := haccounts.pending.trans hpending.symm }

/-- A new command gets a name that no other command has. -/
theorem Numbered.take {h : History} (hnumbered : h.Numbered) {e : Entry} {queue : CommandQueue}
    (hname : e.handle.sequence = h.queue.lastSequence + 1)
    (hlast : queue.lastSequence = h.queue.lastSequence + 1) :
    Numbered { h with queue, taken := h.taken ++ [e] } := by
  refine ⟨?_, fun f hf => ?_⟩
  · rw [List.map_append, List.map_singleton, ← List.concat_eq_append]
    refine hnumbered.distinct.concat fun hmem => ?_
    obtain ⟨f, hf, hsame⟩ := List.mem_map.1 hmem
    have hbound := hnumbered.bound f hf
    rw [hsame, hname] at hbound
    omega
  · rw [hlast]
    rcases List.mem_append.1 hf with hf | hf
    · exact Nat.le_succ_of_le (hnumbered.bound f hf)
    · rw [List.mem_singleton.1 hf]
      exact Nat.le_of_eq hname

/-- A command that is not urgent goes behind all others. -/
theorem Accounts.append {h : History} {done rest : List Entry} (haccounts : h.Accounts done rest)
    {e : Entry} {queue : CommandQueue} (hpending : queue.pending = h.queue.pending ++ [e.queued]) :
    Accounts { h with queue, taken := h.taken ++ [e] } done (rest ++ [e]) where
  pending := by rw [List.map_append, haccounts.pending, hpending, List.map_singleton]
  reported := haccounts.reported
  every := by
    rw [← List.append_assoc]
    exact haccounts.every.append_right [e]
  order := by
    rw [← List.append_assoc, List.filter_append, haccounts.order, List.filter_append]

/-- An urgent command goes wherever it likes. -/
theorem Accounts.squeeze {h : History} {done front back : List Entry}
    (haccounts : h.Accounts done (front ++ back)) {e : Entry} (hurgent : e.urgent = true)
    {queue : CommandQueue} (hpending : queue.pending =
      front.map Entry.queued ++ e.queued :: back.map Entry.queued) :
    Accounts { h with queue, taken := h.taken ++ [e] } done (front ++ e :: back) where
  pending := by rw [List.map_append, List.map_cons, hpending]
  reported := haccounts.reported
  every := by
    have hmiddle : (done ++ (front ++ e :: back)).Perm (e :: (done ++ (front ++ back))) := by
      rw [← List.append_assoc, ← List.append_assoc]
      exact List.perm_middle
    have hlast : (e :: h.taken).Perm (h.taken ++ [e]) := (List.perm_append_singleton e _).symm
    exact hmiddle.trans ((haccounts.every.cons e).trans hlast)
  order := by
    have hskip : e.isOrdinary = false := by simp [Entry.isOrdinary, hurgent]
    have horder := haccounts.order
    simp only [List.filter_append, List.filter_cons, List.filter_nil, hskip, Bool.false_eq_true,
      if_false, List.append_nil] at horder ⊢
    exact horder

/-- Commands are reported from the front. -/
theorem Accounts.settle {h : History} {done front back : List Entry}
    (haccounts : h.Accounts done (front ++ back)) {queue : CommandQueue}
    {completions : List Completion} (hpending : queue.pending = back.map Entry.queued)
    (hreported : completions.map Completion.subject = front.map fun e => e.queued.subject) :
    Accounts { h with queue, completions := h.completions ++ completions }
      (done ++ front) back where
  pending := hpending.symm
  reported := by rw [List.map_append, haccounts.reported, hreported, List.map_append]
  every := by
    rw [List.append_assoc]
    exact haccounts.every
  order := by
    rw [List.append_assoc]
    exact haccounts.order

/-! ## Steps -/

theorem Kept.insert {h : History} (hkept : Kept h) (urgent : Bool) (command : Command) :
    Kept (h.step (.insert urgent command)) := by
  have hcounted := hkept.counted.insert urgent command
  obtain ⟨done, rest, haccounts⟩ := hkept.accounts
  simp only [History.step]
  cases hfull : h.queue.isFull with
  | true =>
    rw [insert_of_full hfull] at hcounted ⊢
    have hbound (e : Entry) (he : e ∈ h.taken) :
        e.handle.sequence ≤ h.queue.lastSequence + 1 :=
      Nat.le_succ_of_le (hkept.numbered.bound e he)
    simp only [Option.map_none, Option.toList_none, List.append_nil]
    exact ⟨hcounted, ⟨hkept.numbered.distinct, hbound⟩, done, rest, { haccounts with }⟩
  | false =>
    rw [insert_of_room hfull] at hcounted ⊢
    refine ⟨hcounted, hkept.numbered.take rfl rfl, done, ?_⟩
    cases urgent with
    | false =>
      refine ⟨_, haccounts.append ?_⟩
      simp [CommandQueue.pending]
    | true =>
      obtain ⟨front, back, rfl, hfront, hback⟩ := List.map_eq_append_iff.1 haccounts.pending
      refine ⟨_, haccounts.squeeze rfl ?_⟩
      rw [hfront, hback]
      rfl

theorem Kept.startNext {h : History} (hkept : Kept h) : Kept (h.step .startNext) := by
  refine hkept.move hkept.counted.startNext ?_ ?_
  · unfold CommandQueue.startNext
    split
    · next hnone hwaiting => exact pending_of_startNext hnone hwaiting
    · rfl
  · unfold CommandQueue.startNext
    split <;> rfl

theorem Kept.requeue {h : History} (hkept : Kept h) : Kept (h.step .requeue) := by
  refine hkept.move hkept.counted.requeue ?_ ?_
  · rcases requeue_cases h.queue with hsame | ⟨queued, hq, hroom⟩
    · rw [hsame]
    · exact pending_of_requeue hq hroom
  · rcases requeue_cases h.queue with hsame | ⟨queued, hq, hroom⟩
    · rw [hsame]
    · rw [requeue_eq hq hroom]

theorem Kept.complete {h : History} (hkept : Kept h) (outcome : Outcome) (code : Int32) :
    Kept (h.step (.complete outcome code)) := by
  have hcounted := hkept.counted.complete outcome code
  cases hq : h.queue.inFlight with
  | none =>
    have hsame : h.step (.complete outcome code) = h := by
      simp only [step, CommandQueue.complete, hq, Option.toList_none, List.append_nil]
    rw [hsame]
    exact hkept
  | some queued =>
    obtain ⟨done, rest, haccounts⟩ := hkept.accounts
    have hpending := haccounts.pending
    rw [CommandQueue.pending, hq] at hpending
    obtain ⟨front, back, rfl, hfront, hback⟩ := List.map_eq_append_iff.1 hpending
    have hreport : (h.queue.complete outcome code).1.toList.map Completion.subject =
        front.map fun e => e.queued.subject := by
      have hsubjects := congrArg (List.map Queued.subject) hfront
      rw [List.map_map] at hsubjects
      simp only [CommandQueue.complete, hq, finish]
      exact hsubjects.symm
    have hrest : (h.queue.complete outcome code).2.pending = back.map Entry.queued := by
      rw [complete_eq hq, hback]
      rfl
    refine ⟨hcounted, ⟨hkept.numbered.distinct, ?_⟩, _, _, haccounts.settle hrest hreport⟩
    simp only [History.step, complete_eq hq]
    exact hkept.numbered.bound

theorem Kept.failAll {h : History} (hkept : Kept h) (reason : String) (code : Int32) :
    Kept (h.step (.failAll reason code)) := by
  have hcounted := hkept.counted.failAll reason code
  obtain ⟨done, rest, haccounts⟩ := hkept.accounts
  obtain ⟨hreports, stats, hqueue⟩ := failAll_eq reason code h.queue
  have hreport : (h.queue.failAll reason code).1.map Completion.subject =
      rest.map fun e => e.queued.subject := by
    rw [hreports, ← haccounts.pending, List.map_map, List.map_map]
    rfl
  have hrest : (h.queue.failAll reason code).2.pending = List.map Entry.queued [] := by
    rw [hqueue]
    rfl
  rw [← List.append_nil rest] at haccounts
  refine ⟨hcounted, ⟨hkept.numbered.distinct, ?_⟩, _, _, haccounts.settle hrest hreport⟩
  simp only [History.step, hqueue]
  exact hkept.numbered.bound

/-- **One operation** loses no command and reports none twice. -/
theorem Kept.step {h : History} (hkept : Kept h) (operation : Operation) :
    Kept (h.step operation) := by
  cases operation with
  | insert urgent command => exact hkept.insert urgent command
  | startNext => exact hkept.startNext
  | complete outcome code => exact hkept.complete outcome code
  | requeue => exact hkept.requeue
  | failAll reason code => exact hkept.failAll reason code

/-- **Every history** loses no command and reports none twice. -/
theorem kept_run (conn : ConnId) (operations : List Operation) : Kept (run conn operations) := by
  have hfrom (h : History) (hkept : Kept h) : Kept (operations.foldl History.step h) := by
    induction operations generalizing h with
    | nil => exact hkept
    | cons operation rest ih => exact ih _ (hkept.step operation)
  exact hfrom _ (kept_new conn)

/-! ## Conservation -/

/-- The names of the commands that were taken in and are not urgent, in the order of their
coming. -/
def ordinary (h : History) : List CommandHandle :=
  (h.taken.filter Entry.isOrdinary).map Entry.handle

/-- The names of the commands that were reported, in the order of the reports. -/
def reported (h : History) : List CommandHandle := h.completions.map Completion.handle

/-- Nothing is lost, nothing is reported twice, and what is not urgent keeps its order. -/
structure IsConserved (h : History) : Prop where
  balance : h.queue.stats.queued = h.queue.stats.ok + h.queue.stats.failed + h.queue.size
  bounded : h.queue.waiting.length ≤ 64
  /-- A command is turned away exactly when 64 others wait, and then nothing happens to those. -/
  refusal : ∀ urgent command,
    ((h.queue.insert urgent command).1 = none ↔ h.queue.waiting.length = 64) ∧
    ((h.queue.insert urgent command).1 = none →
      (h.queue.insert urgent command).2.waiting = h.queue.waiting ∧
      (h.queue.insert urgent command).2.inFlight = h.queue.inFlight ∧
      (h.queue.insert urgent command).2.stats = h.queue.stats)
  distinct : (h.taken.map Entry.handle).Nodup
  /-- A command that was taken in waits, is in flight or was reported: just one of these, and
  just once. -/
  once : ∀ e ∈ h.taken, (h.queue.waiting.map Queued.handle).count e.handle +
    (h.queue.inFlight.toList.map Queued.handle).count e.handle + h.reported.count e.handle = 1
  /-- What is pending was taken in, and what is reported is what was taken in. -/
  pending : ∀ q ∈ h.queue.pending, ∃ e ∈ h.taken, e.queued = q
  faithful : ∀ c ∈ h.completions, ∃ e ∈ h.taken, c.subject = e.queued.subject
  order : (h.reported.filter fun handle => h.ordinary.contains handle) <+: h.ordinary

section
variable {h : History} {done rest : List Entry} (haccounts : h.Accounts done rest)

include haccounts

theorem Accounts.reported_eq : h.reported = done.map Entry.handle := by
  have hnames := congrArg (List.map Prod.fst) haccounts.reported
  rw [List.map_map, List.map_map] at hnames
  exact hnames

theorem Accounts.mem_taken {e : Entry} : e ∈ h.taken ↔ e ∈ done ∨ e ∈ rest := by
  rw [← haccounts.every.mem_iff, List.mem_append]

theorem Accounts.once (hnumbered : h.Numbered) {e : Entry} (he : e ∈ h.taken) :
    (h.queue.waiting.map Queued.handle).count e.handle +
      (h.queue.inFlight.toList.map Queued.handle).count e.handle +
      h.reported.count e.handle = 1 := by
  have hpending := congrArg (List.map Queued.handle) haccounts.pending
  rw [List.map_map, CommandQueue.pending, List.map_append] at hpending
  have hcount := congrArg (List.count e.handle) hpending
  rw [List.count_append] at hcount
  have hall : ((done ++ rest).map Entry.handle).count e.handle = 1 := by
    rw [(haccounts.every.map Entry.handle).count_eq]
    exact List.count_eq_one_of_mem hnumbered.distinct (List.mem_map_of_mem he)
  rw [List.map_append, List.count_append] at hall
  rw [haccounts.reported_eq]
  have hsame : (rest.map (Queued.handle ∘ Entry.queued)).count e.handle =
      (rest.map Entry.handle).count e.handle := rfl
  omega

/-- The reports on commands that are not urgent come in the order of those commands. -/
theorem Accounts.ordered (hnumbered : h.Numbered) :
    (h.reported.filter fun handle => h.ordinary.contains handle) <+: h.ordinary := by
  -- a name tells whether its command is urgent, because no two commands share one
  have hname (e : Entry) (he : e ∈ done) : h.ordinary.contains e.handle = e.isOrdinary := by
    have htaken := haccounts.mem_taken.2 (.inl he)
    rw [Bool.eq_iff_iff, List.contains_iff_mem]
    refine ⟨fun hmem => ?_, fun hordinary => ?_⟩
    · obtain ⟨f, hf, hsame⟩ := List.mem_map.1 hmem
      obtain ⟨hf, hordinary⟩ := List.mem_filter.1 hf
      rw [← List.inj_on_of_nodup_map hnumbered.distinct hf htaken hsame]
      exact hordinary
    · exact List.mem_map_of_mem (List.mem_filter.2 ⟨htaken, hordinary⟩)
  have hfilter : (h.reported.filter fun handle => h.ordinary.contains handle) =
      (done.filter Entry.isOrdinary).map Entry.handle := by
    rw [haccounts.reported_eq, List.filter_map]
    exact congrArg (List.map Entry.handle) (List.filter_congr hname)
  rw [hfilter, ordinary, ← haccounts.order, List.filter_append, List.map_append]
  exact List.prefix_append _ _

end

end History

/-- **Commands are conserved.** Whatever is done with a queue, and in whatever order, its
statistics balance, it holds no more than it may, and every command that it took in waits, is in
flight or was reported, once. Reports on commands that are not urgent come in the order of those
commands, whatever was put back or overtook them in between. -/
theorem commands_conserved (conn : ConnId) (operations : List Operation) :
    (History.run conn operations).IsConserved := by
  obtain ⟨hcounted, hnumbered, done, rest, haccounts⟩ := History.kept_run conn operations
  generalize History.run conn operations = h at *
  refine ⟨hcounted.balance, hcounted.bounded, hcounted.refusal, hnumbered.distinct,
    fun e he => haccounts.once hnumbered he, fun q hq => ?_, fun c hc => ?_,
    haccounts.ordered hnumbered⟩
  · rw [← haccounts.pending] at hq
    obtain ⟨e, he, hsame⟩ := List.mem_map.1 hq
    exact ⟨e, haccounts.mem_taken.2 (.inr he), hsame⟩
  · have hmem := List.mem_map_of_mem (f := Completion.subject) hc
    rw [haccounts.reported] at hmem
    obtain ⟨e, he, hsame⟩ := List.mem_map.1 hmem
    exact ⟨e, haccounts.mem_taken.2 (.inl he), hsame.symm⟩

end CommandQueue

end Observatory
