import Observatory.Proofs.Command.Queue
import Observatory.Proofs.Session.Basic
/-!
# The books of one side

What one side of a session keeps: its own lines, of which at most one is a copy of the command in
flight, and the lines that come to it, of which at most one is the reply.

* `Books` — the invariant of one side.
* `Books.operate`, `Books.frame` — what the side does keeps its books.
* `Books.of_operate`, `Books.of_frame` — what the other side does keeps them too.
-/

namespace Observatory

open Text (OneLine)
open Framing (stream)

/-! ## Reading lines -/

/-- A frame is read as its line is, or as no record at all. -/
theorem recordOf?_of_isFrameOf {limit : Nat} {frame : Framing.Frame} {text : List Char}
    (h : OneLine text) (hframe : Framing.IsFrameOf limit frame (lineBytes text)) :
    Connection.recordOf? frame = none ∨
      Connection.recordOf? frame = readLine (lineBytes text) := by
  rcases Framing.isFrameOf_encode h hframe with ⟨-, rfl⟩ | rfl
  · exact .inl rfl
  · rw [readLine_lineBytes h]
    simp [Connection.recordOf?, Record.parse]

/-! ## Parcels -/

namespace Parcel

/-- A line of text. A copy of a command is not taken for a reply. -/
structure Sound (p : Parcel) : Prop where
  text : ∃ text, OneLine text ∧ p.line = lineBytes text
  noReply : p.request.isSome = true → p.isReply = false

theorem Sound.lineFeed_not_mem {p : Parcel} (h : p.Sound) : lineFeed ∉ p.line := by
  obtain ⟨text, htext, hline⟩ := h.text
  rw [hline]
  exact htext.lineFeed_not_mem_encode

theorem sound_plain {r : Record} (h : r.IsPlain) : Sound ⟨lineBytes r.encode, none⟩ :=
  ⟨⟨r.encode, h.oneLine, rfl⟩, by simp⟩

theorem isReply_plain {r : Record} (h : r.IsPlain) :
    isReply ⟨lineBytes r.encode, none⟩ = r.isReply := by
  obtain ⟨s, hs, hreply, -⟩ := h.read
  unfold isReply
  rw [readLine_lineBytes h.oneLine, hs]
  exact hreply

theorem asks_plain {r : Record} (h : r.IsPlain) : asks ⟨lineBytes r.encode, none⟩ = false := by
  obtain ⟨s, hs, -, hrequest, -⟩ := h.read
  unfold asks
  rw [readLine_lineBytes h.oneLine, hs]
  exact hrequest

theorem isReply_command {c : Command} (h : Record.IsOpcode c.opcode)
    (request : Option CommandHandle) : isReply ⟨lineBytes c.encode, request⟩ = false := by
  unfold isReply
  rw [readLine_lineBytes (Record.oneLine_commandEncode h.bare.ink)]
  cases hparse : Record.parseChars c.encode with
  | error e => rfl
  | ok r => exact Record.isReply_of_parseChars_commandEncode h hparse

theorem sound_command {c : Command} (h : Record.IsOpcode c.opcode)
    (request : Option CommandHandle) : Sound ⟨lineBytes c.encode, request⟩ :=
  ⟨⟨c.encode, Record.oneLine_commandEncode h.bare.ink, rfl⟩, fun _ => isReply_command h request⟩

/-- The parcels of plain records. -/
def plain (records : List Record) : List Parcel :=
  records.map fun r => ⟨lineBytes r.encode, none⟩

theorem label_none (lines : List Bytes) : label none lines = lines.map (⟨·, none⟩) := by
  cases lines <;> rfl

theorem map_line_plain (records : List Record) :
    (plain records).map line = records.map fun r => lineBytes r.encode := by
  simp [plain]

theorem countP_isReply_plain {records : List Record} (h : ∀ r ∈ records, r.IsPlain) :
    (plain records).countP isReply = records.countP Record.isReply := by
  rw [plain, List.countP_map]
  exact List.countP_congr fun r hr => by rw [Function.comp_apply, isReply_plain (h r hr)]

theorem countP_request_plain (records : List Record) :
    (plain records).countP (fun p => p.request.isSome) = 0 := by
  rw [List.countP_eq_zero]
  intro p hp
  obtain ⟨r, -, rfl⟩ := List.mem_map.1 hp
  simp

end Parcel

/-! ## What is written -/

namespace Connection

variable {τ σ : Type}

theorem written_of_output {c d : Connection τ} {lines : List Bytes}
    (houtput : d.output = c.output ++ stream lines) (hlines : ∀ l ∈ lines, lineFeed ∉ l) :
    written c d = Parcel.label (newFlight c d) lines := by
  have hcut := Framing.cut_stream_append hlines (show lineFeed ∉ ([] : Bytes) by simp)
  rw [List.append_nil] at hcut
  unfold written
  rw [houtput, List.drop_left, hcut]

theorem lineFeed_not_mem_plain {records : List Record} (h : ∀ r ∈ records, r.IsPlain) :
    ∀ l ∈ records.map (fun r => lineBytes r.encode), lineFeed ∉ l := by
  intro l hl
  obtain ⟨r, hr, rfl⟩ := List.mem_map.1 hl
  exact (h r hr).oneLine.lineFeed_not_mem_encode

/-- Serving starts no command. -/
theorem ServesOrCloses.newFlight {n : Nat} {c d : Connection τ} (h : ServesOrCloses n c d) :
    Connection.newFlight c d = none := by
  unfold Connection.newFlight
  split
  · rfl
  · next hflight =>
    rcases h with h | ⟨e, reason, -, -, -, rfl⟩
    · rw [h.frame.2.1] at hflight
      exact absurd rfl hflight
    · obtain ⟨-, stats, hqueue⟩ := CommandQueue.failAll_eq connectionLost (-4) e.queue
      simp [finishClose, hqueue]

theorem ServesOrCloses.input {n : Nat} {c d : Connection τ} (h : ServesOrCloses n c d) :
    d.input = c.input := by
  rcases h with h | ⟨e, reason, h, -, -, rfl⟩
  · exact h.frame.2.2
  · exact h.frame.2.2

theorem ServesOrCloses.closed {n : Nat} {c d : Connection τ} (h : ServesOrCloses n c d)
    (hclosed : c.isClosed = true) : d.isClosed = true := by
  rcases h with h | ⟨e, reason, h, -, -, rfl⟩
  · exact h.isClosed.trans hclosed
  · rfl

/-- What serving writes. -/
theorem ServesOrCloses.written {n : Nat} {c d : Connection τ} (h : ServesOrCloses n c d) :
    ∃ records : List Record, Connection.written c d = Parcel.plain records ∧
      d.output = c.output ++ recordBytes records ∧ (∀ r ∈ records, r.IsPlain) ∧
      records.countP Record.isReply = n := by
  obtain ⟨records, houtput, hplain, hcount⟩ := h.writes
  refine ⟨records, ?_, houtput, hplain, hcount⟩
  rw [written_of_output houtput (lineFeed_not_mem_plain hplain), h.newFlight, Parcel.label_none,
    Parcel.plain, List.map_map]
  rfl

end Connection

/-! ## Books -/

/-- The books of one side: the lines it wrote, and those that come to it. -/
structure Books {τ : Type} (c : Connection τ) (out inn : List Parcel) : Prop where
  linked : Connection.Linked c
  helper : c.helper = none
  numbered : ∀ q ∈ c.queue.pending, q.handle.sequence ≤ c.queue.lastSequence
  distinct : (c.queue.pending.map Queued.handle).Nodup
  opcodes : ∀ q ∈ c.queue.pending, Record.IsOpcode q.command.opcode
  expected : ∀ id name, .connectionClosed id name (.protocol .unexpectedReply) ∉ c.events
  sound : ∀ p ∈ out, p.Sound
  /-- Nothing but copies of commands is taken for a request. -/
  plain : c.isClosed = false → ∀ p ∈ out, p.request = none → p.asks = false
  /-- Copies are copies of the command in flight. -/
  copies : c.isClosed = false → ∀ p ∈ out, ∀ handle, p.request = some handle →
    ∃ q, c.queue.inFlight = some q ∧ handle = q.handle ∧ p.line = lineBytes q.command.encode
  /-- Every copy and every reply stands for the command in flight. -/
  count : c.isClosed = false → out.countP (fun p => p.request.isSome) + inn.countP Parcel.isReply ≤
    c.queue.inFlight.toList.length

namespace Books

variable {τ σ : Type} {c d e : Connection τ} {out inn : List Parcel}

/-- Acts that change neither the commands nor the events keep the books. -/
theorem of_alike (h : Books c out inn) (hlinked : Connection.Linked d) (hhelper : d.helper = none)
    (hqueue : d.queue = c.queue) (hclosed : d.isClosed = false → c.isClosed = false)
    (hexpected : ∀ id name, .connectionClosed id name (.protocol .unexpectedReply) ∉ d.events) :
    Books d out inn where
  linked := hlinked
  helper := hhelper
  numbered := by rw [hqueue]; exact h.numbered
  distinct := by rw [hqueue]; exact h.distinct
  opcodes := by rw [hqueue]; exact h.opcodes
  expected := hexpected
  sound := h.sound
  plain := fun hopen => h.plain (hclosed hopen)
  copies := fun hopen => by rw [hqueue]; exact h.copies (hclosed hopen)
  count := fun hopen => by rw [hqueue]; exact h.count (hclosed hopen)

/-- Plain records are no copies and no requests. -/
theorem append_plain (h : Books c out inn) {records : List Record}
    (hplain : ∀ r ∈ records, r.IsPlain) : Books c (out ++ Parcel.plain records) inn where
  linked := h.linked
  helper := h.helper
  numbered := h.numbered
  distinct := h.distinct
  opcodes := h.opcodes
  expected := h.expected
  sound := fun p hp => by
    rcases List.mem_append.1 hp with hp | hp
    · exact h.sound p hp
    · obtain ⟨r, hr, rfl⟩ := List.mem_map.1 hp
      exact Parcel.sound_plain (hplain r hr)
  plain := fun hopen p hp hnone => by
    rcases List.mem_append.1 hp with hp | hp
    · exact h.plain hopen p hp hnone
    · obtain ⟨r, hr, rfl⟩ := List.mem_map.1 hp
      exact Parcel.asks_plain (hplain r hr)
  copies := fun hopen p hp handle hhandle => by
    rcases List.mem_append.1 hp with hp | hp
    · exact h.copies hopen p hp handle hhandle
    · obtain ⟨r, hr, rfl⟩ := List.mem_map.1 hp
      cases hhandle
  count := fun hopen => by
    rw [List.countP_append, Parcel.countP_request_plain, Nat.add_zero]
    exact h.count hopen

/-- A closed side only keeps the soundness of its lines. -/
theorem of_closed (h : Books c out inn) (hclosed : c.isClosed = true) {out' inn' : List Parcel}
    (hsound : ∀ p ∈ out', p.Sound) : Books c out' inn' where
  linked := h.linked
  helper := h.helper
  numbered := h.numbered
  distinct := h.distinct
  opcodes := h.opcodes
  expected := h.expected
  sound := hsound
  plain := fun hopen => by rw [hclosed] at hopen; cases hopen
  copies := fun hopen => by rw [hclosed] at hopen; cases hopen
  count := fun hopen => by rw [hclosed] at hopen; cases hopen

/-! ## Closing and serving -/

theorem finishClose (h : Books c out inn) (hopen : c.isClosed = false) {reason : CloseReason}
    (hreason : reason ≠ .protocol .unexpectedReply) : Books (c.finishClose reason) out inn := by
  obtain ⟨hcompletions, stats, hqueue⟩ :=
    CommandQueue.failAll_eq Connection.connectionLost (-4) c.queue
  have hpending : (c.finishClose reason).queue.pending = [] := by
    simp [Connection.finishClose, hqueue, CommandQueue.pending]
  have hdoes := Connection.Does.close hopen reason
  refine ⟨hdoes.linked h.linked, hdoes.helper h.helper, by simp [hpending], by simp [hpending],
    by simp [hpending], fun id name hmem => ?_, h.sound, ?_, ?_, ?_⟩
  · simp only [Connection.finishClose, List.mem_append, List.mem_singleton] at hmem
    rcases hmem with (hmem | hmem) | hmem
    · exact h.expected id name hmem
    · obtain ⟨x, -, hx⟩ := List.mem_map.1 hmem
      cases hx
    · cases hmem
      exact hreason rfl
  all_goals exact fun hopen' => by cases hopen'

theorem mem_events_of_serves {n : Nat} (h : Connection.Serves n c d) :
    ∀ x ∈ d.events, x ∈ c.events ∨ x.isNote = true := by
  obtain ⟨acts, h, hquiet, -⟩ := h
  refine h.induct (P := fun y => ∀ x ∈ y.events, x ∈ c.events ∨ x.isNote = true) ?_
    fun x hx => .inl hx
  intro a ha y z hd hy
  have hq := hquiet a ha
  cases hd with
  | push v => rw [Connection.sendValue_eq]; exact hy
  | tell _ => exact hy
  | answer _ _ => exact hy
  | note he _ =>
    intro x hx
    rcases List.mem_append.1 hx with hx | hx
    · exact hy x hx
    · rw [List.mem_singleton.1 hx]
      exact .inr he
  | adjust h => rw [h.events]; exact hy
  | _ => simp [Act.isQuiet] at hq

theorem serves {n : Nat} (h : Books c out inn) (hd : Connection.Serves n c d) :
    Books d out inn := by
  have hexpected (id : ConnId) (name : String) :
      .connectionClosed id name (.protocol .unexpectedReply) ∉ d.events := by
    intro hmem
    rcases mem_events_of_serves hd _ hmem with hmem | hnote
    · exact h.expected id name hmem
    · cases hnote
  obtain ⟨acts, hacts, -⟩ := hd.proceeds
  exact h.of_alike (hacts.linked h.linked) (hacts.helper h.helper) hd.frame.2.1
    (fun hopen => hd.isClosed ▸ hopen) hexpected

/-- Serving, and then perhaps closing, keeps the books. -/
theorem servesOrCloses {n : Nat} (h : Books c out inn) (hd : Connection.ServesOrCloses n c d) :
    Books d out inn := by
  rcases hd with hd | ⟨e, reason, hd, hopen, hreason, rfl⟩
  · exact h.serves hd
  · exact (h.serves hd).finishClose hopen hreason

theorem connect (h : Books c out inn) (hd : Connection.Does c .connect d) : Books d out inn := by
  have hlinked := hd.linked h.linked
  have hhelper := hd.helper h.helper
  cases hd with
  | connect hlink heq =>
    subst heq
    refine h.of_alike hlinked hhelper rfl (fun _ => ?_) h.expected
    exact h.linked.not_closed (by simp [hlink])

/-! ## Commands -/

theorem accept (h : Books c out inn) {urgent : Bool} {q : Queued}
    (hopcode : Record.IsOpcode q.command.opcode)
    (hd : Connection.Does c (.accept urgent q) d) : Books d out inn := by
  have hlinked := hd.linked h.linked
  have hhelper := hd.helper h.helper
  cases hd with
  | @accept _ command handle queue hopen hinsert =>
    obtain ⟨hhandle, -, hnumber, hflight, -, -⟩ := CommandQueue.insert_eq_some hinsert
    have hpending := CommandQueue.insert_pending hinsert
    have hmem (q : Queued) (hq : q ∈ queue.pending) :
        q = ⟨handle, command⟩ ∨ q ∈ c.queue.pending := by
      simpa using hpending.mem_iff.1 hq
    refine ⟨hlinked, hhelper, ?_, ?_, ?_, h.expected, h.sound, h.plain, ?_, ?_⟩
    · intro q hq
      show q.handle.sequence ≤ queue.lastSequence
      rw [hnumber]
      rcases hmem q hq with rfl | hq
      · exact Nat.le_of_eq (congrArg CommandHandle.sequence hhandle)
      · exact Nat.le_succ_of_le (h.numbered q hq)
    · show (queue.pending.map Queued.handle).Nodup
      rw [(hpending.map Queued.handle).nodup_iff, List.map_cons, List.nodup_cons]
      refine ⟨fun hin => ?_, h.distinct⟩
      obtain ⟨q, hq, heq⟩ := List.mem_map.1 hin
      have hle := h.numbered q hq
      rw [heq, hhandle] at hle
      exact absurd hle (Nat.not_succ_le_self _)
    · intro q hq
      rcases hmem q hq with rfl | hq
      · exact hopcode
      · exact h.opcodes q hq
    · intro hopen p hp handle' hhandle'
      show ∃ q, queue.inFlight = some q ∧ _
      rw [hflight]
      exact h.copies hopen p hp handle' hhandle'
    · intro hopen
      show _ ≤ queue.inFlight.toList.length
      rw [hflight]
      exact h.count hopen

theorem refuse (h : Books c out inn) (hd : Connection.Does c .refuse d) : Books d out inn := by
  have hlinked := hd.linked h.linked
  have hhelper := hd.helper h.helper
  cases hd with
  | refuse _ =>
    exact ⟨hlinked, hhelper, fun q hq => Nat.le_succ_of_le (h.numbered q hq), h.distinct, h.opcodes,
      h.expected, h.sound, h.plain, h.copies, h.count⟩

/-- The first waiting command is sent when no copy and no reply of another is on its way. -/
theorem start (h : Books c out inn) {q : Queued} (hd : Connection.Does c (.start q) d) :
    Books d (out ++ [⟨lineBytes q.command.encode, some q.handle⟩]) inn := by
  have hlinked := hd.linked h.linked
  have hhelper := hd.helper h.helper
  cases hd with
  | @start _ rest hup hnone hwaiting =>
    have hopen : c.isClosed = false := by
      simp only [Connection.isEstablished, beq_iff_eq] at hup
      simp [Connection.isClosed, hup]
    have hcount := h.count hopen
    rw [hnone] at hcount
    have hpending := CommandQueue.pending_of_startNext hnone hwaiting
    have hopcode : Record.IsOpcode q.command.opcode :=
      h.opcodes q (by simp [CommandQueue.pending, hnone, hwaiting])
    have hnew (p : Parcel) (hp : p ∈ out) : p.request = none := by
      have hzero : out.countP (fun p => p.request.isSome) = 0 := by
        simp only [Option.toList_none, List.length_nil] at hcount
        omega
      simpa using List.countP_eq_zero.1 hzero p hp
    refine ⟨hlinked, hhelper, fun p hp => h.numbered p (hpending ▸ hp), ?_,
      fun p hp => h.opcodes p (hpending ▸ hp), h.expected, ?_, ?_, ?_, ?_⟩
    · have hdistinct := h.distinct
      rw [← hpending] at hdistinct
      exact hdistinct
    · intro p hp
      rcases List.mem_append.1 hp with hp | hp
      · exact h.sound p hp
      · rw [List.mem_singleton.1 hp]
        exact Parcel.sound_command hopcode _
    · intro _ p hp hrequest
      rcases List.mem_append.1 hp with hp | hp
      · exact h.plain hopen p hp hrequest
      · rw [List.mem_singleton.1 hp] at hrequest
        cases hrequest
    · intro _ p hp handle hhandle
      rcases List.mem_append.1 hp with hp | hp
      · rw [hnew p hp] at hhandle
        cases hhandle
      · rw [List.mem_singleton.1 hp] at hhandle ⊢
        cases hhandle
        exact ⟨q, rfl, rfl, rfl⟩
    · intro _
      rw [List.countP_append]
      simp only [Option.toList_none, List.length_nil] at hcount
      show _ + List.countP _ [_] + _ ≤ 1
      simp
      omega

/-- The command in flight comes to an end, or goes back into the queue, and nothing of it is on
its way any more. -/
theorem land (h : Books c out inn) (hlinked : Connection.Linked d) (hhelper : d.helper = none)
    (hnumber : d.queue.lastSequence = c.queue.lastSequence)
    (hpending : d.queue.pending.Sublist c.queue.pending)
    (hexpected : ∀ id name, .connectionClosed id name (.protocol .unexpectedReply) ∉ d.events)
    (hopen : c.isClosed = false) {rest : List Parcel}
    (hcount : out.countP (fun p => p.request.isSome) + rest.countP Parcel.isReply = 0) :
    Books d out rest where
  linked := hlinked
  helper := hhelper
  numbered := fun p hp => hnumber ▸ h.numbered p (hpending.subset hp)
  distinct := (hpending.map Queued.handle).nodup h.distinct
  opcodes := fun p hp => h.opcodes p (hpending.subset hp)
  expected := hexpected
  sound := h.sound
  plain := fun _ => h.plain hopen
  copies := fun _ p hp handle hhandle => by
    have hzero : out.countP (fun p => p.request.isSome) = 0 := by omega
    have hp' := List.countP_eq_zero.1 hzero p hp
    rw [hhandle] at hp'
    simp at hp'
  count := fun _ => by
    rw [hcount]
    exact Nat.zero_le _

/-! ## What one side does -/

/-- A side goes from one state to another, keeps its books and writes so many replies. -/
structure Keeps (replies : Nat) (c d : Connection τ) (out inn : List Parcel) : Prop where
  books : Books d (out ++ Connection.written c d) inn
  replies : (Connection.written c d).countP Parcel.isReply = replies
  output : d.output = c.output ++ stream ((Connection.written c d).map Parcel.line)
  input : d.input = c.input
  closed : c.isClosed = true → d.isClosed = true

theorem Keeps.of_silent (h : Books d out inn) (houtput : d.output = c.output)
    (hinput : d.input = c.input) (hclosed : c.isClosed = true → d.isClosed = true) :
    Keeps 0 c d out inn := by
  have hwritten : Connection.written c d = [] :=
    Connection.written_of_output (show d.output = c.output ++ stream [] by simp [houtput])
      (by simp)
  refine ⟨?_, ?_, ?_, hinput, hclosed⟩
  · rw [hwritten, List.append_nil]
    exact h
  · rw [hwritten]
    rfl
  · rw [hwritten]
    simp [houtput]

theorem Keeps.of_serves {n : Nat} (h : Books c out inn) (hd : Connection.ServesOrCloses n c d) :
    Keeps n c d out inn := by
  obtain ⟨records, hwritten, houtput, hplain, hcount⟩ := hd.written
  refine ⟨?_, ?_, ?_, hd.input, hd.closed⟩
  · rw [hwritten]
    exact (h.servesOrCloses hd).append_plain hplain
  · rw [hwritten, Parcel.countP_isReply_plain hplain, hcount]
  · rw [hwritten, Parcel.map_line_plain]
    exact houtput

/-- What is silent in front of the rest does not matter. -/
theorem Keeps.after {n : Nat} (houtput : d.output = c.output) (hinput : d.input = c.input)
    (hclosed : c.isClosed = true → d.isClosed = true)
    (hflight : Connection.newFlight c e = Connection.newFlight d e) (h : Keeps n d e out inn) :
    Keeps n c e out inn := by
  have hwritten : Connection.written c e = Connection.written d e := by
    unfold Connection.written
    rw [houtput, hflight]
  refine ⟨?_, ?_, ?_, h.input.trans hinput, fun hc => h.closed (hclosed hc)⟩
  · rw [hwritten]
    exact h.books
  · rw [hwritten]
    exact h.replies
  · rw [hwritten, ← houtput]
    exact h.output

theorem newFlight_congr (h : d.queue.inFlight = c.queue.inFlight) (e : Connection τ) :
    Connection.newFlight c e = Connection.newFlight d e := by
  unfold Connection.newFlight
  rw [h]

/-- A command is sent, and then perhaps more. -/
theorem Keeps.of_start {q : Queued} (h : Books c out inn) (hnone : c.queue.inFlight = none)
    (hd : Connection.Does c (.start q) d) (he : Connection.ServesOrCloses 0 d e) :
    Keeps 0 c e out inn := by
  have hopcode : Record.IsOpcode q.command.opcode := by
    cases hd with
    | start _ _ hwaiting => exact h.opcodes q (by simp [CommandQueue.pending, hnone, hwaiting])
  obtain ⟨hout, hsent, hinput, hopen⟩ : d.output = c.output ++
      stream [lineBytes q.command.encode] ∧ d.queue.inFlight = some q ∧ d.input = c.input ∧
      c.isClosed = false := by
    cases hd with
    | start hup _ _ =>
      rw [Connection.sendLine_eq]
      simp only [Connection.isEstablished, beq_iff_eq] at hup
      exact ⟨rfl, rfl, rfl, by simp [Connection.isClosed, hup]⟩
  obtain ⟨records, -, houtput, hplain, hcount⟩ := he.written
  have hbooks := (h.start hd).servesOrCloses he
  have hlines : e.output = c.output ++
      stream (lineBytes q.command.encode :: records.map fun r => lineBytes r.encode) := by
    rw [houtput, hout, recordBytes, List.append_assoc, ← Framing.stream_append]
    rfl
  have hwritten : Connection.written c e =
      ⟨lineBytes q.command.encode, Connection.newFlight c e⟩ :: Parcel.plain records := by
    rw [Connection.written_of_output hlines, Parcel.label, Parcel.plain, List.map_map]
    · rfl
    · intro l hl
      rcases List.mem_cons.1 hl with rfl | hl
      · exact (Record.oneLine_commandEncode hopcode.bare.ink).lineFeed_not_mem_encode
      · exact Connection.lineFeed_not_mem_plain hplain l hl
  refine ⟨?_, ?_, ?_, he.input.trans hinput, fun hclosed => by rw [hopen] at hclosed; cases hclosed⟩
  · rw [hwritten]
    cases hend : e.isClosed with
    | true =>
      refine hbooks.of_closed hend fun p hp => ?_
      rcases List.mem_append.1 hp with hp | hp
      · exact h.sound p hp
      · rcases List.mem_cons.1 hp with rfl | hp
        · exact Parcel.sound_command hopcode _
        · obtain ⟨r, hr, rfl⟩ := List.mem_map.1 hp
          exact Parcel.sound_plain (hplain r hr)
    | false =>
      have hflight : e.queue.inFlight = some q := by
        rcases he with he | ⟨f, reason, -, -, -, rfl⟩
        · rw [he.frame.2.1, hsent]
        · cases hend
      have hnew : Connection.newFlight c e = some q.handle := by
        unfold Connection.newFlight
        rw [hflight, hnone, if_neg (by simp)]
        rfl
      rw [hnew, ← List.singleton_append, ← List.append_assoc]
      exact hbooks.append_plain hplain
  · rw [hwritten, List.countP_cons, Parcel.countP_isReply_plain hplain, hcount,
      Parcel.isReply_command hopcode]
    rfl
  · rw [hwritten, List.map_cons, Parcel.map_line_plain]
    exact hlines

theorem Keeps.of_pump (h : Books c out inn) : Keeps 0 c c.pump out inn := by
  rcases Connection.performs_pump c with hpump | ⟨hnone, -, q, hd⟩
  · rw [hpump]
    exact .of_silent h rfl rfl id
  · exact .of_start h hnone hd (.inl (.refl _))

theorem Keeps.of_drain (h : Books c out inn) (hd : Connection.Does c .drain d) :
    Keeps 0 c d out inn := by
  have hlinked := hd.linked h.linked
  have hhelper := hd.helper h.helper
  cases hd with
  | drain hopen _ =>
    refine .of_silent (h.of_alike hlinked hhelper rfl (fun _ => hopen) h.expected) rfl rfl ?_
    intro hclosed
    rw [hopen] at hclosed
    cases hclosed

theorem Keeps.of_close (h : Books c out inn) {reason : CloseReason}
    (hreason : reason ≠ .protocol .unexpectedReply) (hd : Connection.Does c (.close reason) d) :
    Keeps 0 c d out inn := by
  cases hd with
  | close hopen _ => exact .of_silent (h.finishClose hopen hreason) rfl rfl fun _ => rfl

/-- A command is turned away, or taken in and perhaps sent at once. -/
theorem Keeps.of_queueCommand (h : Books c out inn) (urgent : Bool) {command : Command}
    (hopcode : Record.IsOpcode command.opcode) :
    Keeps 0 c (c.queueCommand urgent command).2 out inn := by
  rcases Connection.performs_queueCommand urgent command c with
    ⟨e, he⟩ | ⟨e, d, hd, he⟩ | ⟨handle, d, hd, he⟩
  · rw [he]
    exact .of_silent h rfl rfl id
  · rw [he]
    have hrefused := h.refuse hd
    cases hd with
    | refuse _ => exact .of_silent hrefused rfl rfl id
  · rw [he]
    have hpump := Keeps.of_pump (h.accept hopcode hd)
    cases hd with
    | accept _ hinsert =>
      have hflight := (CommandQueue.insert_eq_some hinsert).2.2.2.1
      refine Keeps.after ?_ ?_ ?_ (newFlight_congr ?_ _) hpump
      · rfl
      · rfl
      · exact id
      · exact hflight

/-- A connect that came to an end is reported, and the next command is sent, or the connection is
closed. -/
theorem Keeps.of_pollConnect (h : Books c out inn) (answer : Connection.ConnectAnswer τ)
    (now : Instant) : Keeps 0 c (c.pollConnect answer now).2 out inn := by
  rcases Connection.performs_pollConnect answer now h.linked with
    he | ⟨d, e, hd, hnote, he⟩ | ⟨reason, hd⟩
  · rw [he]
    exact .of_silent h rfl rfl id
  · rw [he]
    have hconnected := h.connect hd
    have hreported := hconnected.serves (hnote.serves rfl)
    cases hd with
    | connect hlink heq =>
      subst heq
      have hopen : c.isClosed = false := h.linked.not_closed (by simp [hlink])
      cases hnote with
      | note _ _ =>
        refine Keeps.after ?_ ?_ ?_ (newFlight_congr ?_ _) (Keeps.of_pump hreported)
        · rfl
        · rfl
        · intro hclosed
          rw [hopen] at hclosed
          cases hclosed
        · rfl
  · exact .of_close h (by simp) hd

/-- **One operation** of the owner keeps the books, and writes no reply. -/
theorem operate (h : Books c out inn) {op : Operation τ} (hop : op.Allowed) :
    Keeps 0 c (op.apply c) out inn := by
  cases op with
  | queue urgent command => exact .of_queueCommand h urgent hop
  | push v => exact .of_serves h (.inl ((Connection.Does.push v).serves rfl))
  | pushAll values => exact .of_serves h (.inl (Connection.serves_sendValues values.values c))
  | broadcast values =>
    show Keeps 0 c (c.broadcastDirty values) out inn
    unfold Connection.broadcastDirty
    split
    · exact .of_serves h (.inl (Connection.serves_sendValues values.dirty c))
    · exact .of_silent h rfl rfl id
  | tell r => exact .of_serves h (.inl (Connection.serves_tell hop))
  | idle now =>
    obtain ⟨d, hd, hidle⟩ := Connection.performs_idle now h.helper
    rcases hd with rfl | ⟨hnone, q, hd⟩
    · exact .of_serves h hidle
    · exact .of_start h hnone hd hidle
  | poll answer now => exact .of_pollConnect h answer now
  | close reason =>
    show Keeps 0 c (c.close reason) out inn
    rcases Connection.performs_close reason c with he | hd | hd
    · rw [he]
      exact .of_silent h rfl rfl id
    · exact .of_drain h hd
    · exact .of_close h hop hd

/-! ## What one line does -/

/-- A line that was waited for is no longer on its way. -/
theorem tail {p : Parcel} (h : Books c out (p :: inn)) : Books c out inn where
  linked := h.linked
  helper := h.helper
  numbered := h.numbered
  distinct := h.distinct
  opcodes := h.opcodes
  expected := h.expected
  sound := h.sound
  plain := h.plain
  copies := h.copies
  count := fun hopen => by
    have hcount := h.count hopen
    rw [List.countP_cons] at hcount
    omega

/-- A reply is only read when a command is in flight; it takes the place of nothing else. -/
theorem reply {p : Parcel} (h : Books c out (p :: inn)) (hopen : c.isClosed = false)
    (hp : p.isReply = true) : ∃ q, c.queue.inFlight = some q ∧
      out.countP (fun p => p.request.isSome) + inn.countP Parcel.isReply = 0 := by
  have hcount := h.count hopen
  rw [List.countP_cons, if_pos hp] at hcount
  cases hq : c.queue.inFlight with
  | none =>
    rw [hq] at hcount
    simp at hcount
  | some q =>
    rw [hq] at hcount
    simp only [Option.toList_some, List.length_singleton] at hcount
    exact ⟨q, rfl, by omega⟩

/-- Acts that only adjust keep the books. -/
theorem adjust (h : Books c out inn) (hd : Connection.Does c .adjust d) : Books d out inn :=
  h.serves (hd.serves rfl)

theorem requeue (h : Books c out inn) {q : Queued} {rest : List Parcel}
    (hcount : out.countP (fun p => p.request.isSome) + rest.countP Parcel.isReply = 0)
    (hd : Connection.Does c (.requeue q) d) :
    Books d out rest ∧ d.output = c.output ∧ d.input = c.input := by
  have hlinked := hd.linked h.linked
  have hhelper := hd.helper h.helper
  cases hd with
  | requeue hq hopen hroom =>
    refine ⟨h.land hlinked hhelper ?_ ?_ h.expected hopen hcount, rfl, rfl⟩
    · simp [CommandQueue.requeue_eq hq hroom]
    · rw [CommandQueue.pending_of_requeue hq hroom]

theorem complete (h : Books c out inn) {q : Queued} {outcome : Outcome} {code : Int32}
    {rest : List Parcel}
    (hcount : out.countP (fun p => p.request.isSome) + rest.countP Parcel.isReply = 0)
    (hd : Connection.Does c (.complete q outcome code) d) :
    Books d out rest ∧ d.output = c.output ∧ d.input = c.input ∧
      d.queue.waiting = c.queue.waiting := by
  have hlinked := hd.linked h.linked
  have hhelper := hd.helper h.helper
  cases hd with
  | complete hq hopen _ _ =>
    have hqueue := CommandQueue.complete_eq hq outcome code
    refine ⟨h.land hlinked hhelper ?_ ?_ ?_ hopen hcount, rfl, rfl, ?_⟩
    · simp [Connection.emit, hqueue]
    · simp [Connection.emit, hqueue, CommandQueue.pending, hq]
    · intro id name hmem
      rcases List.mem_append.1 hmem with hmem | hmem
      · exact h.expected id name hmem
      · have hend := Completion.isEnd_event (q.complete outcome code)
        rw [← List.mem_singleton.1 hmem] at hend
        cases hend
    · simp [Connection.emit, hqueue]

theorem Keeps.of_reply {p : Parcel} (h : Books c out (p :: inn)) (hopen : c.isClosed = false)
    (hp : p.isReply = true) {acts : List Act}
    (hacts : Connection.ReplyActs c.queue.inFlight acts)
    (hd : Connection.Performs c (acts ++ [.adjust]) e) : Keeps 0 c e out inn := by
  obtain ⟨q, hq, hcount⟩ := h.reply hopen hp
  have hnever {P : Prop} (hclosed : c.isClosed = true) : P := by
    rw [hopen] at hclosed
    cases hclosed
  rw [hq] at hacts
  cases hacts with
  | ignored =>
    obtain ⟨_, hadjust, hnil⟩ := hd.uncons
    cases hnil
    exact .of_serves h.tail (.inl (hadjust.serves rfl))
  | requeued =>
    obtain ⟨d, hrequeue, hd⟩ := hd.uncons
    obtain ⟨_, hadjust, hnil⟩ := hd.uncons
    cases hnil
    obtain ⟨hbooks, houtput, hinput⟩ := h.requeue hcount hrequeue
    cases hadjust with
    | adjust halike =>
      exact .of_silent (hbooks.adjust (.adjust halike)) (halike.output.trans houtput)
        (halike.input.trans hinput) hnever
  | done _ outcome code =>
    obtain ⟨d, hcomplete, hd⟩ := hd.uncons
    obtain ⟨_, hadjust, hnil⟩ := hd.uncons
    cases hnil
    obtain ⟨hbooks, houtput, hinput, -⟩ := h.complete hcount hcomplete
    cases hadjust with
    | adjust halike =>
      exact .of_silent (hbooks.adjust (.adjust halike)) (halike.output.trans houtput)
        (halike.input.trans hinput) hnever
  | next _ outcome code q' =>
    obtain ⟨d, hcomplete, hd⟩ := hd.uncons
    obtain ⟨f, hstart, hd⟩ := hd.uncons
    obtain ⟨_, hadjust, hnil⟩ := hd.uncons
    cases hnil
    obtain ⟨hbooks, houtput, hinput, hwaiting⟩ := h.complete hcount hcomplete
    obtain ⟨hnone, hflight, hne⟩ : d.queue.inFlight = none ∧ f.queue.inFlight = some q' ∧
        q' ≠ q := by
      cases hstart with
      | start _ hnone hnext =>
        refine ⟨hnone, rfl, ?_⟩
        rintro rfl
        have hdistinct := h.distinct
        rw [CommandQueue.pending, hq, ← hwaiting, hnext] at hdistinct
        simp at hdistinct
    have hflight' : e.queue.inFlight = some q' := by
      cases hadjust with
      | adjust halike => rw [halike.queue, hflight]
    refine Keeps.after houtput hinput hnever ?_
      (.of_start hbooks hnone hstart (.inl (hadjust.serves rfl)))
    unfold Connection.newFlight
    rw [hflight', hq, hnone, if_neg (by simpa using hne), if_neg (by simp)]

/-- **One line** that comes to a side keeps its books. It is answered once at most, and only when
it was taken for a request. -/
theorem frame (dev : Device σ) {t : Turn τ σ} {p : Parcel} (h : Books t.conn out (p :: inn))
    (hopen : t.conn.isClosed = false) (hp : p.Sound) {limit : Nat} {frame : Framing.Frame}
    (hframe : Framing.IsFrameOf limit frame p.line) :
    ∃ replies, replies ≤ (if p.asks then 1 else 0) ∧
      Keeps replies t.conn (Connection.processFrame dev t frame).conn out inn := by
  obtain ⟨text, htext, hline⟩ := hp.text
  rw [hline] at hframe
  have hrecord := recordOf?_of_isFrameOf htext hframe
  rw [← hline] at hrecord
  by_cases hreply : ∃ r, Connection.recordOf? frame = some r ∧ r.isReply = true
  · obtain ⟨r, hr, hisReply⟩ := hreply
    have hp : p.isReply = true := by
      rcases hrecord with hnone | hsame
      · rw [hr] at hnone
        cases hnone
      · rw [Parcel.isReply, ← hsame, hr]
        exact hisReply
    obtain ⟨acts, hacts, hd⟩ := Connection.performs_processFrame_reply dev hopen hr hisReply
    exact ⟨0, Nat.zero_le _, .of_reply h hopen hp hacts hd⟩
  · have hother (r : Record) (hr : Connection.recordOf? frame = some r) : r.isReply = false := by
      rw [← Bool.not_eq_true]
      exact fun hisReply => hreply ⟨r, hr, hisReply⟩
    have hserves := Connection.serves_processFrame dev hopen hother
    refine ⟨_, ?_, .of_serves h.tail hserves⟩
    rcases hrecord with hnone | hsame
    · rw [hnone]
      exact Nat.zero_le _
    · rw [hsame]
      exact Nat.le_refl _

end Books

end Observatory
