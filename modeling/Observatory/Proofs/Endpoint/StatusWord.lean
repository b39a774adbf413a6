import Observatory.Connection.Wire
import Observatory.Proofs.Endpoint.Children
/-!
# What subscribers know of the status

A subscriber is sent the status when it is taken in, and again whenever the status changes. So the
last status that was written to it is the status of the endpoint, as long as nobody queues commands
whose lines say something else. A connection that is still to be established is no subscriber when
it is taken in, though, and nothing is sent when its connect comes to an end: it learns the status
with the next change.

* `statusesIn` — the status words among lines.
* `Connection.Apprised` — what one connection knows; `Chats` and `Yields` keep that.
* `Happening.said`, `Happening.unaware` — what was written to a connection in a run, and whether
  it was left out.
* `Endpoint.status_known_iff` — every run.
-/

namespace Observatory

/-! ## Status words among lines -/

/-- The word that a line announces as the status of its sender. -/
def statusOf? (line : Bytes) : Option UInt32 := (readLine line).bind Record.status?

/-- The words that whole lines announce, in their order. -/
def statusesIn (bytes : Bytes) : List UInt32 := (Framing.cut bytes).1.filterMap statusOf?

/-- The line of a command says nothing of the status. -/
def Command.IsDiscreet (c : Command) : Prop := statusesIn (lineBytes c.encode ++ [lineFeed]) = []

instance (c : Command) : Decidable c.IsDiscreet := inferInstanceAs (Decidable (_ = _))

theorem statusesIn_append {a : Bytes} (ha : (Framing.cut a).2 = []) (b : Bytes) :
    statusesIn (a ++ b) = statusesIn a ++ statusesIn b ∧
      (Framing.cut (a ++ b)).2 = (Framing.cut b).2 := by
  unfold statusesIn
  rw [Framing.cut_append, ha, List.nil_append, List.filterMap_append]
  exact ⟨rfl, rfl⟩

/-- A line feed ends a line, whatever stands before it. -/
theorem cut_lineFeed (a : Bytes) : (Framing.cut (a ++ [lineFeed])).2 = [] := by
  rw [Framing.cut_append, Framing.cut_line_append (Framing.lineFeed_not_mem_cut_snd a)]
  rfl

/-- A plain record is read as the status that it is, if it is one. -/
theorem Record.IsPlain.statusOf?_encode {r : Record} (h : r.IsPlain) :
    statusOf? (lineBytes r.encode) = r.status? := by
  unfold statusOf?
  rw [readLine_lineBytes h.oneLine]
  cases r with
  | value name text => rw [parseChars_value_trim]; rfl
  | metaInfo code name description => rw [parseChars_metaInfo]; rfl
  | symbolInfo name symbol => rw [parseChars_symbolInfo]; rfl
  | status bits => rw [parseChars_status]; rfl
  | blocking bits => rw [parseChars_blocking]; rfl
  | message m => rw [parseChars_message]; rfl
  | technical text => rw [parseChars_technical_trim]; rfl
  | reply code reason => rw [parseChars_reply]; rfl
  | set _ _ _ => exact h.elim
  | command _ _ => exact h.elim

theorem statusesIn_lineBytes {r : Record} (h : r.IsPlain) :
    statusesIn (lineBytes r.encode ++ [lineFeed]) = r.status?.toList := by
  unfold statusesIn
  rw [Framing.cut_line_append (l := lineBytes r.encode) h.oneLine.lineFeed_not_mem_encode,
    Framing.cut_nil, List.filterMap_cons, h.statusOf?_encode, List.filterMap_nil]
  cases r.status? <;> rfl

/-- Only the keyword of the status makes a command say something of it. -/
theorem Command.isDiscreet_of_opcode {c : Command} (hopcode : Record.IsOpcode c.opcode)
    (hword : c.opcode ≠ "S") : c.IsDiscreet := by
  have hline := Record.oneLine_commandEncode (c := c) hopcode.bare.ink
  unfold IsDiscreet statusesIn
  rw [Framing.cut_line_append (l := lineBytes c.encode) hline.lineFeed_not_mem_encode,
    Framing.cut_nil, List.filterMap_cons, List.filterMap_nil]
  have hread : statusOf? (lineBytes c.encode) = none := by
    unfold statusOf?
    rw [readLine_lineBytes hline, Record.parseChars_commandEncode hopcode]
    cases hparse : Record.parseBody c.opcode.toList
      (c.params.flatMap fun p => ' ' :: Text.Quoted.encodeArgument p.toList) with
    | error e => rfl
    | ok r =>
      cases r with
      | status bits =>
        have hsame := Record.word?_of_parseBody hparse
        rw [String.ofList_toList] at hsame
        split at hsame
        · cases hsame
        · exact absurd (Option.some.inj hsame).symm hword
      | _ => rfl
  rw [hread]

namespace Connection

variable {τ : Type} {c d e : Connection τ}

/-- None of the commands that are still to be sent says anything of the status. -/
def IsDiscreet (c : Connection τ) : Prop := ∀ q ∈ c.queue.pending, q.command.IsDiscreet

/-- Whole lines are written that say nothing of the status, and a connection is established only
if it was, or if its connect came to an end. -/
structure Chats (c d : Connection τ) : Prop where
  kind : d.kind = c.kind
  up : d.isEstablished = true → c.isEstablished = true ∨ c.state = .connecting
  waits : d.state = .connecting → c.state = .connecting
  discreet : c.IsDiscreet → d.IsDiscreet
  lines : c.IsDiscreet → ∃ more, d.output = c.output ++ more ∧ (Framing.cut more).2 = [] ∧
    statusesIn more = []

theorem Chats.of_same (hkind : d.kind = c.kind) (hstate : d.state = c.state)
    (hpending : d.queue.pending = c.queue.pending) (houtput : d.output = c.output) :
    Chats c d where
  kind := hkind
  up := fun h => .inl (by unfold isEstablished at h ⊢; rwa [hstate] at h)
  waits := fun h => by rwa [hstate] at h
  discreet := fun h q hq => h q (by rwa [hpending] at hq)
  lines := fun _ => ⟨[], by rw [houtput, List.append_nil], rfl, rfl⟩

theorem Chats.trans (h : Chats c d) (h' : Chats d e) : Chats c e where
  kind := h'.kind.trans h.kind
  up := fun hup => by
    rcases h'.up hup with hd | hd
    · exact h.up hd
    · exact .inr (h.waits hd)
  waits := fun hwaits => h.waits (h'.waits hwaits)
  discreet := fun hc => h'.discreet (h.discreet hc)
  lines := fun hc => by
    obtain ⟨as, has, hawhole, hastatus⟩ := h.lines hc
    obtain ⟨bs, hbs, hbwhole, hbstatus⟩ := h'.lines (h.discreet hc)
    obtain ⟨hstatus, hwhole⟩ := statusesIn_append hawhole bs
    refine ⟨as ++ bs, by rw [hbs, has, List.append_assoc], hwhole.trans hbwhole, ?_⟩
    rw [hstatus, hastatus, hbstatus]
    rfl

/-- **Dealings with the peer** say nothing of the status. -/
theorem Converses.chats (h : Converses Command.IsDiscreet c d) : Chats c d := by
  have hexpects {command : Command} (hc : c.IsDiscreet)
      (hcommand : c.Expects Command.IsDiscreet command) : command.IsDiscreet := by
    rcases hcommand with ⟨q, hq, rfl⟩ | hcommand
    · exact hc q hq
    · exact hcommand
  refine ⟨h.kind, fun hup => .inl (h.up hup), h.waits, fun hc q hq => hexpects hc (h.expects q hq),
    fun hc => ?_⟩
  obtain ⟨lines, houtput, hutters⟩ := h.lines
  refine ⟨Framing.stream lines, houtput, ?_⟩
  clear houtput
  induction lines with
  | nil => exact ⟨rfl, rfl⟩
  | cons line lines ih =>
    obtain ⟨hwhole, hstatus⟩ := ih fun l hl => hutters l (List.mem_cons_of_mem _ hl)
    have hline : statusesIn (line ++ [lineFeed]) = [] := by
      rcases hutters line List.mem_cons_self with ⟨r, hr, rfl⟩ | ⟨command, hcommand, rfl⟩
      · rw [statusesIn_lineBytes hr.1, hr.2]
        rfl
      · exact hexpects hc hcommand
    obtain ⟨hsplit, hrest⟩ := statusesIn_append (cut_lineFeed line) (Framing.stream lines)
    rw [Framing.stream_cons, List.append_cons]
    exact ⟨hrest.trans hwhole, by rw [hsplit, hline, hstatus]; rfl⟩

/-- The end of a connect makes a connection established, and nothing is sent but a command. -/
theorem chats_pollConnect (answer : ConnectAnswer τ) (now : Instant) (hc : Linked c) :
    Chats c (c.pollConnect answer now).2 := by
  unfold pollConnect
  split
  · next address stream hlink =>
    have hwaits := hc.connecting address hlink
    have hup : Chats c
        { c with link := .stream stream, state := .established, lastActivity := now } :=
      { Chats.of_same (c := c) rfl rfl rfl rfl with
        up := fun _ => .inr hwaits
        waits := fun _ => hwaits }
    refine hup.trans (Converses.chats ?_)
    exact (converses_emit rfl _).trans (converses_pump _)
  · exact (converses_finishClose _ c).chats
  · exact .of_same rfl rfl rfl rfl

/-- Nothing is written; output may be given away, and the connection may be closed. -/
structure Yields (c d : Connection τ) : Prop where
  kind : d.kind = c.kind
  up : d.isEstablished = true → c.isEstablished = true
  waits : d.state = .connecting → c.state = .connecting
  discreet : c.IsDiscreet → d.IsDiscreet

theorem yields_writePass (T : Transport τ) (c : Connection τ) : Yields c (c.writePass T).2 := by
  refine writePass_induct (fun d link h => { h with }) (fun d count h => { h with })
    (fun d reason h => ?_) T ⟨rfl, fun h => h, fun h => h, fun h => h⟩
  have hclosed := converses_finishClose (Q := Command.IsDiscreet) reason d
  exact ⟨hclosed.kind.trans h.kind, fun hup => h.up (hclosed.up hup),
    fun hwaits => h.waits (hclosed.waits hwaits), fun hc => hclosed.chats.discreet (h.discreet hc)⟩

/-! ## What one connection knows -/

/-- What was written to a connection: whole lines, and for a subscriber the last status among them
is the present one, unless it was left out and never saw one. -/
structure Apprised (word : UInt32) (unaware : Bool) (written : Bytes) (c : Connection τ) :
    Prop where
  whole : (Framing.cut written).2 = []
  discreet : c.IsDiscreet
  waits : c.state = .connecting → unaware = true ∧ statusesIn written = []
  told : Endpoint.isSubscriber c = true →
    (statusesIn written).getLast? = if unaware then none else some word

theorem isSubscriber_iff (c : Connection τ) : Endpoint.isSubscriber c = true ↔
    c.kind.subscribes = true ∧ c.isEstablished = true := by
  unfold Endpoint.isSubscriber
  rw [Bool.and_eq_true]

variable {word : UInt32} {unaware : Bool} {written : Bytes}

/-- **Lines that say nothing of the status.** -/
theorem Apprised.chat (h : Apprised word unaware written c) (hd : Chats c d) :
    Apprised word unaware (written ++ d.output.drop c.output.length) d := by
  obtain ⟨more, houtput, hwhole, hstatus⟩ := hd.lines h.discreet
  obtain ⟨hsplit, hrest⟩ := statusesIn_append h.whole more
  rw [houtput, List.drop_left]
  rw [hstatus, List.append_nil] at hsplit
  refine ⟨hrest.trans hwhole, hd.discreet h.discreet, fun hwaits => ?_, fun hsub => ?_⟩
  · rw [hsplit]
    exact h.waits (hd.waits hwaits)
  · rw [hsplit]
    obtain ⟨hkind, hup⟩ := (isSubscriber_iff d).1 hsub
    rcases hd.up hup with hc | hc
    · exact h.told ((isSubscriber_iff c).2 ⟨hd.kind ▸ hkind, hc⟩)
    · obtain ⟨hunaware, hnone⟩ := h.waits hc
      rw [hunaware, hnone]
      rfl

/-- **Output that is given away** stays written. -/
theorem Apprised.yield (h : Apprised word unaware written c) (hd : Yields c d) :
    Apprised word unaware written d where
  whole := h.whole
  discreet := hd.discreet h.discreet
  waits := fun hwaits => h.waits (hd.waits hwaits)
  told := fun hsub => by
    obtain ⟨hkind, hup⟩ := (isSubscriber_iff d).1 hsub
    exact h.told ((isSubscriber_iff c).2 ⟨hd.kind ▸ hkind, hd.up hup⟩)

/-- **A new status** is written to every subscriber, and whoever is established is left out no
more. -/
theorem Apprised.announce (h : Apprised word unaware written c) (old new : DeviceStatus)
    (hword : word = old.bits) :
    Apprised new.bits (unaware && (decide (new = old) || !c.isEstablished))
      (written ++ (Endpoint.announceTo old new c).output.drop c.output.length)
      (Endpoint.announceTo old new c) := by
  unfold Endpoint.announceTo
  by_cases hsame : new = old
  · subst hsame
    rw [if_pos rfl, decide_eq_true rfl, Bool.true_or, Bool.and_true, List.drop_length,
      List.append_nil, ← hword]
    exact h
  · rw [if_neg hsame, decide_eq_false hsame, Bool.false_or]
    by_cases hsub : Endpoint.isSubscriber c = true
    · have hup := ((isSubscriber_iff c).1 hsub).2
      obtain ⟨hsplit, hrest⟩ := statusesIn_append h.whole (recordBytes [.status new.bits])
      rw [recordBytes_singleton] at hsplit hrest
      rw [statusesIn_lineBytes (r := .status new.bits) trivial] at hsplit
      rw [if_pos hsub, hup, Bool.not_true, Bool.and_false, send_eq]
      dsimp only
      rw [List.drop_left, recordBytes_singleton]
      refine ⟨hrest.trans (cut_lineFeed _), h.discreet, fun hwaits => ?_, fun _ => ?_⟩
      · have hdown : c.isEstablished = false := congrArg (· == .established) hwaits
        rw [hdown] at hup
        cases hup
      · rw [hsplit]
        exact List.getLast?_concat
    · rw [if_neg hsub, List.drop_length, List.append_nil]
      refine ⟨h.whole, h.discreet, fun hwaits => ?_, fun h => absurd h hsub⟩
      obtain ⟨hunaware, hnone⟩ := h.waits hwaits
      have hdown : c.isEstablished = false := by rw [isEstablished, hwaits]; rfl
      rw [hunaware, hdown]
      exact ⟨rfl, hnone⟩

end Connection

open Connection (Apprised Chats Linked)

namespace Endpoint

variable {τ σ ℓ η : Type}

theorem chats_emptied (c : Connection τ) : Chats c (emptied c) := .of_same rfl rfl rfl rfl

theorem chats_readOne (w : Wiring τ σ ℓ η) (p : Pass τ) {t : Turn τ σ} (hc : Linked t.conn) :
    Chats t.conn (readOne w p t).2.conn := by
  have herrors (c : Connection τ) : Chats c (c.errorPass w.transport).2 := by
    unfold Connection.errorPass
    split <;> exact .of_same rfl rfl rfl rfl
  unfold readOne
  dsimp only
  have hconnect := Connection.chats_pollConnect (p.connects t.conn.id) p.now hc
  have hread := (Connection.converses_readPass (Q := Command.IsDiscreet) w.transport w.device p.now
    { t with conn := (t.conn.pollConnect (p.connects t.conn.id) p.now).2 }).chats
  exact (hconnect.trans hread).trans (herrors _)

/-- The end of a child says nothing, and the end of its connection neither. -/
theorem chats_finishChild (exit : ChildExit) (h : Helper τ) (reason : CloseReason)
    (c : Connection τ) : Chats c ((c.endChild exit h).finishClose reason) := by
  have hended : Chats c (c.endChild exit h) := .of_same rfl rfl rfl rfl
  exact hended.trans (Connection.converses_finishClose reason _).chats

theorem chats_reapOne (exits : Pid → Option ChildExit) (c : Connection τ) :
    Chats c (reapOne exits c) := by
  rcases reapOne_cases exits c with ⟨h, exit, hchild, -, hreap⟩ | ⟨-, hreap⟩
  · rw [hreap, Connection.childReturned_eq hchild]
    split
    · exact chats_finishChild _ _ _ c
    · exact .of_same rfl rfl rfl rfl
  · rw [hreap]
    exact .of_same rfl rfl rfl rfl

theorem chats_idle (now : Instant) (c : Connection τ) : Chats c (c.idle now) := by
  unfold Connection.idle
  split
  · split
    · rw [Connection.killOverdue_eq]
      exact chats_finishChild _ _ _ c
    · exact (Connection.converses_idleEstablished now c).chats
  · exact (Connection.converses_idleEstablished now c).chats

/-- A connection as it is taken in: a subscriber is sent the status, and nobody anything else. -/
theorem welcome_spec (c : Connection τ) (e : Endpoint τ σ ℓ η) :
    (e.welcome c).kind = c.kind ∧ (e.welcome c).state = c.state ∧
      (e.welcome c).queue = c.queue ∧ (e.welcome c).output =
        c.output ++ if isSubscriber c then recordBytes [.status e.status.bits] else [] := by
  have hconfigured (d : Connection τ) (hkind : d.kind = c.kind) (hstate : d.state = c.state)
      (hqueue : d.queue = c.queue) (houtput : d.output = c.output) :
      let d' := if isSubscriber d then d.send (.status e.status.bits) else d
      d'.kind = c.kind ∧ d'.state = c.state ∧ d'.queue = c.queue ∧ d'.output =
        c.output ++ if isSubscriber c then recordBytes [.status e.status.bits] else [] := by
    have hsub : isSubscriber d = isSubscriber c := by
      unfold isSubscriber Connection.isEstablished
      rw [hkind, hstate]
    intro d'
    simp only [d', hsub]
    split
    · rw [Connection.send_eq]
      exact ⟨hkind, hstate, hqueue, by rw [houtput]⟩
    · exact ⟨hkind, hstate, hqueue, by rw [houtput, List.append_nil]⟩
  unfold welcome configure
  dsimp only
  split <;> exact hconfigured _ rfl rfl rfl rfl

/-- Who is established when it is taken in knows the status at once. -/
theorem apprised_welcome {c : Connection τ} (e : Endpoint τ σ ℓ η) (hup : c.state = .established)
    (houtput : c.output = []) (hpending : c.queue.pending = []) :
    Apprised e.status.bits false (e.welcome c).output (e.welcome c) := by
  obtain ⟨hkind, hstate, hqueue, hwritten⟩ := welcome_spec c e
  have hsub : isSubscriber (e.welcome c) = isSubscriber c := by
    unfold isSubscriber Connection.isEstablished
    rw [hkind, hstate]
  rw [houtput, List.nil_append] at hwritten
  refine ⟨?_, fun q hq => ?_, fun hwaits => ?_, fun h => ?_⟩
  · rw [hwritten]
    split
    · rw [recordBytes_singleton]
      exact cut_lineFeed _
    · rfl
  · rw [hqueue, hpending] at hq
    cases hq
  · rw [hstate, hup] at hwaits
    cases hwaits
  · rw [hwritten, if_pos (hsub ▸ h), recordBytes_singleton,
      statusesIn_lineBytes (r := .status _) trivial]
    rfl

/-- Who is still to be established is sent nothing. -/
theorem apprised_welcome_connecting {c : Connection τ} (e : Endpoint τ σ ℓ η)
    (hwaits : c.state = .connecting) (houtput : c.output = []) (hpending : c.queue.pending = []) :
    Apprised e.status.bits true (e.welcome c).output (e.welcome c) := by
  obtain ⟨hkind, hstate, hqueue, hwritten⟩ := welcome_spec c e
  have hnone : isSubscriber c = false := by
    unfold isSubscriber Connection.isEstablished
    rw [hwaits]
    exact Bool.and_false _
  have hsub : isSubscriber (e.welcome c) = isSubscriber c := by
    unfold isSubscriber Connection.isEstablished
    rw [hkind, hstate]
  rw [houtput, hnone, List.nil_append, if_neg Bool.false_ne_true] at hwritten
  refine ⟨by rw [hwritten]; rfl, fun q hq => ?_, fun _ => ⟨rfl, by rw [hwritten]; rfl⟩,
    fun h => ?_⟩
  · rw [hqueue, hpending] at hq
    cases hq
  · rw [hsub, hnone] at h
    cases h

end Endpoint

namespace Happening

variable {τ σ ℓ η : Type} {w : Wiring τ σ ℓ η} {e : Endpoint τ σ ℓ η}

/-! ## One thing that happens -/

/-- Every command that is queued is of a kind. -/
def Orders (Q : Command → Prop) : Happening τ ℓ → Prop
  | queue _ command => Q command
  | queueTo _ command => Q command
  | _ => True

/-- What comes behind the output of a connection, unless some of it is given away. -/
def adds : Happening τ ℓ → Connection τ → Connection τ → Bytes
  | write, _, _ => []
  | takeOutput _, _, _ => []
  | _, c, d => d.output.drop c.output.length

/-- Only two things change the status. -/
theorem status_apply (w : Wiring τ σ ℓ η) {h : Happening τ ℓ}
    (hset : ∀ mask bits, h ≠ .setStatus mask bits) (hdevice : h ≠ .runDevice)
    (e : Endpoint τ σ ℓ η) : (h.apply w e).status = e.status := by
  have hone (id : ConnId) (f : Connection τ → Connection τ) :
      (e.onOne id f).status = e.status := by
    unfold Endpoint.onOne
    split <;> rfl
  cases h with
  | setStatus mask bits => exact absurd rfl (hset mask bits)
  | runDevice => exact absurd rfl hdevice
  | adopt spec started now =>
    rcases apply_adopt w spec started now e with ⟨-, happly⟩ | ⟨child, limit, -, happly⟩
    · exact congrArg Endpoint.status happly
    · exact (congrArg Endpoint.status happly).trans rfl
  | hear conn now bytes =>
    show (e.hear w conn now bytes).status = _
    unfold Endpoint.hear
    split <;> rfl
  | askClose conn => exact hone conn _
  | takeOutput conn => exact hone conn _
  | broadcastDirty =>
    show e.broadcastDirty.status = _
    unfold Endpoint.broadcastDirty
    split <;> rfl
  | _ => rfl

/-- Whatever else happens, nothing that is written says anything of the status. -/
theorem Treats.chats {h : Happening τ ℓ} (hset : ∀ mask bits, h ≠ .setStatus mask bits)
    (hdevice : h ≠ .runDevice) (hwrite : h ≠ .write) (htake : ∀ conn, h ≠ .takeOutput conn)
    {c d : Connection τ} (horders : h.Orders Command.IsDiscreet)
    (htreats : h.Treats w Command.IsDiscreet e c d) (hc : Linked c) : Chats c d := by
  have hsame : Chats c c := .of_same rfl rfl rfl rfl
  cases h with
  | setStatus mask bits => exact absurd rfl (hset mask bits)
  | runDevice => exact absurd rfl hdevice
  | write => exact absurd rfl hwrite
  | takeOutput conn => exact absurd rfl (htake conn)
  | queue conn command =>
    subst htreats
    split
    · exact (Connection.converses_queueCommand horders false c).chats
    · exact hsame
  | queueTo peer command =>
    rcases htreats with rfl | rfl
    · exact hsame
    · exact (Connection.converses_queueCommand horders false c).chats
  | hear conn now bytes =>
    subst htreats
    split
    · exact (Connection.converses_receive w.device now bytes ⟨c, ⟨e.values, e.device⟩⟩).chats
    · exact hsame
  | askClose conn =>
    subst htreats
    split
    · exact (Connection.converses_close _ c).chats
    · exact hsame
  | askCloseAll => subst htreats; exact (Connection.converses_close _ c).chats
  | infoAll =>
    subst htreats
    split
    · exact (Connection.converses_sendValues _ c).chats
    · exact hsame
  | message sec usec severity text =>
    subst htreats
    split
    · have htalk : (Record.message ⟨sec, usec, e.name, severity, text⟩).IsTalk := ⟨trivial, rfl⟩
      exact (Connection.converses_send htalk c).chats
    · exact hsame
  | read p =>
    obtain ⟨own, rfl⟩ := htreats
    exact Endpoint.chats_readOne w p (t := ⟨c, own⟩) hc
  | deliver =>
    have htaken : Chats c { Endpoint.emptied c with events := [] } := .of_same rfl rfl rfl rfl
    exact htaken.trans (Connection.Queues.converses htreats).chats
  | drop => rw [htreats.1]; exact hsame
  | reap exits =>
    subst htreats
    exact (Endpoint.chats_reapOne exits c).trans (Endpoint.chats_emptied _)
  | watch now => subst htreats; exact Endpoint.chats_idle now c
  | broadcastDirty =>
    subst htreats
    split
    · exact (Connection.converses_broadcastDirty _ c).chats
    · exact hsame
  | takeOutbox => subst htreats; exact Endpoint.chats_emptied c
  | _ => subst htreats; exact hsame

/-- **What one connection knows** after one thing that happens. -/
theorem Treats.apprised {h : Happening τ ℓ} {c d : Connection τ} {unaware : Bool}
    {written : Bytes} (horders : h.Orders Command.IsDiscreet)
    (htreats : h.Treats w Command.IsDiscreet e c d) (hc : Linked c)
    (ha : Apprised e.status.bits unaware written c) :
    Apprised (h.apply w e).status.bits
      (unaware && (decide ((h.apply w e).status = e.status) || !c.isEstablished))
      (written ++ h.adds c d) d := by
  have hquiet (hstatus : (h.apply w e).status = e.status)
      (hd : Apprised e.status.bits unaware (written ++ h.adds c d) d) :
      Apprised (h.apply w e).status.bits
        (unaware && (decide ((h.apply w e).status = e.status) || !c.isEstablished))
        (written ++ h.adds c d) d := by
    rw [decide_eq_true hstatus, Bool.true_or, Bool.and_true, hstatus]
    exact hd
  cases h with
  | setStatus mask bits => subst htreats; exact ha.announce _ _ rfl
  | runDevice => subst htreats; exact ha.announce _ _ rfl
  | write =>
    subst htreats
    refine hquiet rfl ?_
    rw [show written ++ adds write c _ = written from List.append_nil _]
    unfold Endpoint.writeOne
    split
    · exact ha.yield (Connection.yields_writePass _ c)
    · exact ha
  | takeOutput conn =>
    subst htreats
    refine hquiet (status_apply w (by simp) (by simp) e) ?_
    rw [show written ++ adds (takeOutput conn) c _ = written from List.append_nil _]
    split
    · exact { ha with }
    · exact ha
  | _ =>
    exact hquiet (status_apply w (by simp) (by simp) e)
      (ha.chat (htreats.chats (by simp) (by simp) (by simp) (by simp) horders hc))

/-! ## Runs -/

/-- What is written to the connection of a number. -/
def writes (w : Wiring τ σ ℓ η) (id : ConnId) (e : Endpoint τ σ ℓ η) (h : Happening τ ℓ) : Bytes :=
  match e.connection? id, (h.apply w e).connection? id with
  | some c, some d => h.adds c d
  | none, some d => d.output
  | _, none => []

/-- Everything that is written to the connection of a number in a run. -/
def said (w : Wiring τ σ ℓ η) (id : ConnId) : List (Happening τ ℓ) → Endpoint τ σ ℓ η → Bytes
  | [], _ => []
  | h :: hs, e => h.writes w id e ++ said w id hs (h.apply w e)

/-- The connection of a number is opened. -/
def opens (id : ConnId) (e : Endpoint τ σ ℓ η) : Happening τ ℓ → Bool
  | connect _ _ _ _ => id == e.connections.lastId + 1
  | _ => false

/-- A connection that is opened is left out, until the status changes while it is established. -/
def leavesOut (w : Wiring τ σ ℓ η) (id : ConnId) (e : Endpoint τ σ ℓ η) (was : Bool)
    (h : Happening τ ℓ) : Bool :=
  was && (decide ((h.apply w e).status = e.status) ||
    !(e.connection? id).any Connection.isEstablished) || h.opens id e

/-- Whether the connection of a number is left out after a run. -/
def unaware (w : Wiring τ σ ℓ η) (id : ConnId) :
    List (Happening τ ℓ) → Endpoint τ σ ℓ η → Bool → Bool
  | [], _, was => was
  | h :: hs, e, was => unaware w id hs (h.apply w e) (h.leavesOut w id e was)

/-- What every connection knows at any time. -/
structure Apprises (written : ConnId → Bytes) (out : ConnId → Bool) (e : Endpoint τ σ ℓ η) :
    Prop where
  numbered : e.Numbered
  linked : ∀ c ∈ e.connections.items, Linked c
  every : ∀ c ∈ e.connections.items, Apprised e.status.bits (out c.id) (written c.id) c
  unborn : ∀ id, e.connections.lastId < id → written id = [] ∧ out id = false

theorem apprised_of_newcomer (w : Wiring τ σ ℓ η) {h : Happening τ ℓ} {new : Connection τ}
    (hnew : h.newcomer? e = some new) : Apprised (h.apply w e).status.bits
      (h.opens (e.connections.lastId + 1) e) (e.welcome new).output (e.welcome new) := by
  have hstatus : (h.apply w e).status = e.status :=
    status_apply w (fun _ _ heq => by subst heq; cases hnew) (fun heq => by subst heq; cases hnew) e
  rw [hstatus]
  cases h with
  | add _ _ _ => cases hnew; exact Endpoint.apprised_welcome e rfl rfl rfl
  | connect _ _ _ _ =>
    cases hnew
    simp only [opens, BEq.rfl]
    exact Endpoint.apprised_welcome_connecting e rfl rfl rfl
  | attach _ _ _ _ => cases hnew; exact Endpoint.apprised_welcome e rfl rfl rfl
  | accept _ _ => cases hnew; exact Endpoint.apprised_welcome e rfl rfl rfl
  | adopt spec started now =>
    simp only [newcomer?] at hnew
    split at hnew
    · cases hnew
      exact Endpoint.apprised_welcome e rfl rfl rfl
    · cases hnew
  | _ => cases hnew

/-- **One thing that happens.** -/
theorem Apprises.apply {written : ConnId → Bytes} {out : ConnId → Bool}
    (ha : Apprises written out e)
    (hreact : ∀ listener event, (w.react listener event).Orders Command.IsDiscreet)
    {h : Happening τ ℓ} (horders : h.Orders Command.IsDiscreet) :
    Apprises (fun id => written id ++ h.writes w id e) (fun id => h.leavesOut w id e (out id))
      (h.apply w e) := by
  have hnumbered := numbered_apply w ha.numbered h
  refine ⟨hnumbered, linked_apply w ha.numbered ha.linked h, fun d hd => ?_, fun id hid => ?_⟩
  · have hafter : (h.apply w e).connection? d.id = some d := hnumbered.connection?_of_mem hd
    have hfollows := follows hreact ha.numbered h d.id
    rw [hafter] at hfollows
    cases hbefore : e.connection? d.id with
    | some c =>
      rw [hbefore] at hfollows
      cases hfollows with
      | stays hc htreats =>
        have hid := htreats.id
        have hopens : h.opens d.id e = false := by
          cases h with
          | connect _ _ _ _ =>
            have hgiven := ha.numbered.given c.id (List.mem_map_of_mem hc)
            refine beq_eq_false_iff_ne.2 fun heq => ?_
            rw [← hid, heq] at hgiven
            exact absurd hgiven (Nat.not_succ_le_self _)
          | _ => rfl
        simp only [writes, leavesOut, hbefore, hafter, hopens, Option.any_some, Bool.or_false]
        have hknown := ha.every c hc
        rw [← hid] at hknown
        exact htreats.apprised horders (ha.linked c hc) hknown
    | none =>
      rw [hbefore] at hfollows
      cases hfollows with
      | @comes new hnew =>
        have hid : (e.welcome new).id = e.connections.lastId + 1 :=
          (Endpoint.id_welcome new e).trans (id_of_newcomer hnew)
        obtain ⟨hwritten, hout⟩ := ha.unborn (e.welcome new).id (hid ▸ Nat.lt_succ_self _)
        simp only [writes, leavesOut, hbefore, hafter, hwritten, hout, Bool.false_and,
          Bool.false_or, List.nil_append]
        rw [hid]
        exact apprised_of_newcomer w hnew
  · have hlast : e.connections.lastId < id := Nat.lt_of_le_of_lt (lastId_apply w h e) hid
    have hafter : (h.apply w e).connection? id = none := hnumbered.connection?_of_unborn hid
    have hopens : h.opens id e = false := by
      cases h with
      | connect _ _ _ _ => exact beq_eq_false_iff_ne.2 fun heq => absurd hid (heq ▸ Nat.lt_irrefl _)
      | _ => rfl
    obtain ⟨hwritten, hout⟩ := ha.unborn id hlast
    simp only [writes, leavesOut, hafter, hwritten, hout, hopens, Bool.false_and, Bool.or_false,
      List.nil_append]
    cases e.connection? id <;> exact ⟨trivial, trivial⟩

/-- **Every run.** -/
theorem apprises_run {hs : List (Happening τ ℓ)} {written : ConnId → Bytes} {out : ConnId → Bool}
    {e : Endpoint τ σ ℓ η} (ha : Apprises written out e)
    (hreact : ∀ listener event, (w.react listener event).Orders Command.IsDiscreet)
    (horders : ∀ h ∈ hs, h.Orders Command.IsDiscreet) :
    Apprises (fun id => written id ++ said w id hs e) (fun id => unaware w id hs e (out id))
      (run w hs e) := by
  induction hs generalizing written out e with
  | nil => simpa [said, unaware] using ha
  | cons h hs ih =>
    have hrest := ih (ha.apply hreact (horders h List.mem_cons_self))
      fun k hk => horders k (List.mem_cons_of_mem _ hk)
    simp only [List.append_assoc] at hrest
    exact hrest

end Happening

namespace Endpoint

open Happening (run said unaware)

variable {τ σ ℓ η : Type}

/-- **What subscribers know of the status.** In every run in which no command is queued whose line
says something of the status, the last status that was written to a subscriber is that of the
endpoint, exactly if the connection was not opened by a connect, or the status changed after the
connect came to its end. Otherwise no status was ever written to it. By `run_tick` and
`run_postEvent` the runs include whole passes and whatever the owner posts between them. -/
theorem status_known_iff (w : Wiring τ σ ℓ η)
    (hreact : ∀ listener event, (w.react listener event).Orders Command.IsDiscreet)
    (settings : Settings) (device : σ) (past : List (Happening τ ℓ))
    (horders : ∀ h ∈ past, h.Orders Command.IsDiscreet) :
    let start : Endpoint τ σ ℓ η := { settings, device }
    let e := run w past start
    ∀ c ∈ e.connections.items, isSubscriber c = true →
      let words := statusesIn (said w c.id past start)
      (words.getLast? = some e.status.bits ↔ unaware w c.id past start false = false) ∧
        (unaware w c.id past start false = true → words = []) := by
  intro start e c hc hsub words
  have hstart : Happening.Apprises (fun _ => []) (fun _ => false) start :=
    { numbered := numbered_new settings device
      linked := fun c hc => by cases hc
      every := fun c hc => by cases hc
      unborn := fun _ _ => ⟨rfl, rfl⟩ }
  have htold := ((Happening.apprises_run hstart hreact horders).every c hc).told hsub
  rw [List.nil_append] at htold
  replace htold : words.getLast? =
    if unaware w c.id past start false then none else some e.status.bits := htold
  cases hout : unaware w c.id past start false with
  | true =>
    rw [hout, if_pos rfl] at htold
    refine ⟨by simp [htold], fun _ => List.getLast?_eq_none_iff.1 htold⟩
  | false =>
    rw [hout, if_neg Bool.false_ne_true] at htold
    exact ⟨by simp [htold], fun h => by cases h⟩

/-- One client is taken in with the status, another learns it when it changes after its connect. -/
theorem status_known_of_change :
    let w : Wiring Wire Unit Unit Event := ⟨Wire.transport, Device.passive, fun _ _ => .done ()⟩
    let start : Endpoint Wire Unit Unit Event := { settings := {}, device := () }
    let past : List (Happening Wire Unit) :=
      [.add .client "near" 0, .connect "far" "host:1" .client 0, .queue 1 { opcode := "info" },
        .read { now := 1, connects := fun _ => .connected {} }, .setStatus 3 2]
    let e := run w past start
    (e.connections.items.map fun c => (c.id, isSubscriber c)) = [(1, true), (2, true)] ∧
      e.status.bits = 2 ∧ ∀ c ∈ e.connections.items, isSubscriber c = true →
        (statusesIn (said w c.id past start)).getLast? = some e.status.bits := by
  intro w start past e
  have hreact : ∀ listener event, (w.react listener event).Orders Command.IsDiscreet :=
    fun _ _ => trivial
  have hinfo : ({ opcode := "info" } : Command).IsDiscreet :=
    Command.isDiscreet_of_opcode (by decide) (by decide)
  have horders : ∀ h ∈ past, h.Orders Command.IsDiscreet := by
    simp only [past, List.forall_mem_cons]
    exact ⟨trivial, trivial, hinfo, trivial, trivial, fun _ h => by cases h⟩
  have hknown := status_known_iff w hreact {} () past horders
  have hout : ∀ c ∈ e.connections.items, unaware w c.id past start false = false := by
    decide +kernel
  exact ⟨by decide +kernel, by decide +kernel, fun c hc hsub =>
    ((hknown c hc hsub).1).2 (hout c hc)⟩

/-- A client whose connect came to its end was sent no status. And a command may say what no status
of the endpoint ever was. -/
theorem status_unknown_of_connect :
    let w : Wiring Wire Unit Unit Event := ⟨Wire.transport, Device.passive, fun _ _ => .done ()⟩
    let start : Endpoint Wire Unit Unit Event := { settings := {}, device := () }
    let opened : List (Happening Wire Unit) := [.connect "far" "host:1" .client 0,
      .read { now := 1, connects := fun _ => .connected {} }]
    let asked : List (Happening Wire Unit) := [.add .client "near" 0,
      .queue 1 { opcode := "S", params := ["5"] }]
    (∃ c ∈ (run w opened start).connections.items, isSubscriber c = true ∧
      said w c.id opened start = []) ∧
    ∃ c ∈ (run w asked start).connections.items, isSubscriber c = true ∧
      statusesIn (said w c.id asked start) = [0, 5] ∧ (run w asked start).status.bits = 0 := by
  decide +kernel

end Endpoint

end Observatory
