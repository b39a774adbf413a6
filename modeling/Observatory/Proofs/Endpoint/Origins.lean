import Mathlib.Data.List.Nodup
import Mathlib.Logic.Relation
import Observatory.Proofs.Connection.Converse
import Observatory.Proofs.Endpoint.Delivery
import Observatory.Proofs.Endpoint.Happenings
/-!
# Where connections come from

Connections are told apart by their numbers, which are given out in order and never again. So
whatever happens to an endpoint, each of its connections is one that just came, or one that was
there before under the same number; and what becomes of one connection can be followed without
looking at the others.

* `Endpoint.Numbered` — the connections are in the order of their numbers; every run keeps that.
* `Happening.Treats` — what becomes of one connection when something happens.
* `Happening.origin` — each connection was there and was treated, or is new.
-/

namespace Observatory

/-! ## Numbers of connections -/

namespace Connections

variable {τ : Type}

/-- The numbers of the connections, in their order. -/
def ids (t : Connections τ) : List ConnId := t.items.map (·.id)

theorem ids_map {f : Connection τ → Connection τ} (hf : ∀ c, (f c).id = c.id)
    (t : Connections τ) : (t.map f).ids = t.ids := by
  unfold ids map
  rw [List.map_map]
  exact List.map_congr_left fun c _ => hf c

/-- Where the numbers are all different, the connection of a number is the one that is found. -/
theorem get?_of_mem {t : Connections τ} (hids : t.ids.Nodup) {c : Connection τ}
    (hc : c ∈ t.items) : t.get? c.id = some c := by
  obtain ⟨items, lastId⟩ := t
  replace hids : (items.map (·.id)).Nodup := hids
  show items.find? (fun d => d.id == c.id) = some c
  induction items with
  | nil => cases hc
  | cons d ds ih =>
    rw [List.map_cons, List.nodup_cons] at hids
    rcases List.mem_cons.1 hc with rfl | hc
    · simp
    · have hne : d.id ≠ c.id := fun h => hids.1 (h ▸ List.mem_map_of_mem hc)
      rw [List.find?_cons_of_neg (by simpa using hne)]
      exact ih hc hids.2

theorem id_of_get? {t : Connections τ} {id : ConnId} {c : Connection τ}
    (h : t.get? id = some c) : c.id = id := by
  have hfound := List.find?_some h
  simpa using hfound

/-- Where the numbers are all different, putting a connection in its place changes one alone. -/
theorem put_eq_map {t : Connections τ} (hids : t.ids.Nodup) (c : Connection τ) :
    t.put c = t.map fun d => if d.id = c.id then c else d := by
  obtain ⟨items, lastId⟩ := t
  replace hids : (items.map (·.id)).Nodup := hids
  unfold put map
  congr 1
  induction items with
  | nil => rfl
  | cons d ds ih =>
    rw [List.map_cons, List.nodup_cons] at hids
    unfold putFirst
    by_cases hd : d.id = c.id
    · have hrest : ds.map (fun x => if x.id = c.id then c else x) = ds := by
        rw [List.map_congr_left (g := id), List.map_id]
        intro x hx
        have hne : x.id ≠ c.id := fun h => hids.1 (hd ▸ h ▸ List.mem_map_of_mem hx)
        rw [if_neg hne]
        rfl
      rw [if_pos (by simpa using hd), List.map_cons, if_pos hd, hrest]
    · rw [if_neg (by simpa using hd), List.map_cons, if_neg hd, ih hids.2]

theorem ids_put (c : Connection τ) (t : Connections τ) : (t.put c).ids = t.ids := by
  unfold ids put
  dsimp only
  induction t.items with
  | nil => rfl
  | cons d ds ih =>
    unfold putFirst
    split
    · next h => rw [List.map_cons, List.map_cons, beq_iff_eq.1 h]
    · rw [List.map_cons, List.map_cons, ih]

theorem ids_queueCommand (id : ConnId) (command : Command) (t : Connections τ) :
    (t.queueCommand id command).2.ids = t.ids := by
  unfold queueCommand
  split
  · rfl
  · exact ids_put _ t

theorem ids_queueCommandTo (peer : String) (command : Command) (t : Connections τ) :
    (t.queueCommandTo peer command).2.ids = t.ids := by
  unfold queueCommandTo
  split
  · rfl
  · exact ids_put _ t

theorem lastId_queueCommand (id : ConnId) (command : Command) (t : Connections τ) :
    (t.queueCommand id command).2.lastId = t.lastId := by
  unfold queueCommand
  split <;> rfl

theorem lastId_queueCommandTo (peer : String) (command : Command) (t : Connections τ) :
    (t.queueCommandTo peer command).2.lastId = t.lastId := by
  unfold queueCommandTo
  split <;> rfl

/-- Commands leave the numbers alone. -/
theorem keeps_numbers (ids : List ConnId) (last : ConnId) :
    Keeps (τ := τ) (fun _ => True) fun t => t.ids = ids ∧ t.lastId = last where
  queue := fun t id command _ h =>
    ⟨(ids_queueCommand id command t).trans h.1, (lastId_queueCommand id command t).trans h.2⟩
  queueTo := fun t peer command _ h =>
    ⟨(ids_queueCommandTo peer command t).trans h.1,
      (lastId_queueCommandTo peer command t).trans h.2⟩

end Connections

namespace Connection

variable {τ σ : Type}

theorem id_childReturned (exit : ChildExit) (c : Connection τ) :
    (c.childReturned exit).id = c.id := by
  unfold childReturned
  dsimp only
  split
  · rfl
  · split <;> split <;> rfl

/-- The exit status of the child can be collected now. -/
def isReapable (exits : Pid → Option ChildExit) (c : Connection τ) : Bool :=
  c.helper.any fun h => !h.reaped && (exits h.pid).isSome

theorem id_idle (now : Instant) (c : Connection τ) : (c.idle now).id = c.id := by
  have hdealt : (c.idleEstablished now).id = c.id :=
    (converses_idleEstablished (Q := fun _ => True) now c).id
  unfold idle killOverdue
  dsimp only
  split
  · split
    · split <;> rfl
    · exact hdealt
  · exact hdealt

theorem id_pollConnect (answer : ConnectAnswer τ) (now : Instant) (c : Connection τ) :
    (c.pollConnect answer now).2.id = c.id := by
  unfold pollConnect
  split
  · exact (converses_pump (Q := fun _ => True) _).id
  · rfl
  · rfl

theorem id_errorPass (T : Transport τ) (c : Connection τ) : (c.errorPass T).2.id = c.id := by
  unfold errorPass
  split <;> rfl

theorem id_writePass (T : Transport τ) (c : Connection τ) : (c.writePass T).2.id = c.id :=
  writePass_induct (P := fun d => d.id = c.id) (fun _ _ h => h) (fun _ _ h => h) (fun _ _ h => h) T
    rfl

end Connection

namespace Endpoint

variable {τ σ ℓ η : Type}

/-- The connections are in the order of their numbers, and none has a number that is still to be
given out. -/
structure Numbered (e : Endpoint τ σ ℓ η) : Prop where
  ordered : e.connections.ids.Pairwise (· < ·)
  given : ∀ id ∈ e.connections.ids, id ≤ e.connections.lastId

theorem Numbered.distinct {e : Endpoint τ σ ℓ η} (h : e.Numbered) : e.connections.ids.Nodup :=
  h.ordered.imp Nat.ne_of_lt

theorem Numbered.connection?_of_mem {e : Endpoint τ σ ℓ η} (h : e.Numbered) {c : Connection τ}
    (hc : c ∈ e.connections.items) : e.connection? c.id = some c :=
  Connections.get?_of_mem h.distinct hc

theorem Numbered.eq_of_id {e : Endpoint τ σ ℓ η} (h : e.Numbered) {b c : Connection τ}
    (hb : b ∈ e.connections.items) (hc : c ∈ e.connections.items) (hid : b.id = c.id) : b = c := by
  have hfound := h.connection?_of_mem hb
  rw [hid, h.connection?_of_mem hc] at hfound
  exact (Option.some.inj hfound).symm

/-- Each connection is changed, and is still the same one. -/
theorem Numbered.of_ids {e e' : Endpoint τ σ ℓ η} (h : e.Numbered)
    (hids : e'.connections.ids = e.connections.ids)
    (hlast : e'.connections.lastId = e.connections.lastId) : e'.Numbered := by
  refine ⟨by rw [hids]; exact h.ordered, fun id hid => ?_⟩
  rw [hids] at hid
  rw [hlast]
  exact h.given id hid

/-- A connection with a new number is taken in. -/
theorem Numbered.insert {e e' : Endpoint τ σ ℓ η} (h : e.Numbered) {c : Connection τ}
    (hc : c.id = e.connections.lastId + 1)
    (hitems : e'.connections.items = e.connections.items ++ [c])
    (hlast : e'.connections.lastId = e.connections.lastId + 1) : e'.Numbered := by
  have hids : e'.connections.ids = e.connections.ids ++ [c.id] := by
    unfold Connections.ids
    rw [hitems, List.map_append]
    rfl
  refine ⟨?_, fun id hid => ?_⟩
  · rw [hids, List.pairwise_append]
    refine ⟨h.ordered, List.pairwise_singleton _ _, fun id hid other hother => ?_⟩
    rw [List.mem_singleton.1 hother, hc]
    exact Nat.lt_succ_of_le (h.given id hid)
  · rw [hids] at hid
    rw [hlast]
    rcases List.mem_append.1 hid with hid | hid
    · exact Nat.le_succ_of_le (h.given id hid)
    · exact Nat.le_of_eq ((List.mem_singleton.1 hid).trans hc)

theorem id_welcome (c : Connection τ) (e : Endpoint τ σ ℓ η) : (e.welcome c).id = c.id := by
  unfold welcome configure
  dsimp only
  split <;> split <;> rfl

/-- Where the numbers are all different, a change of one connection leaves the others alone. -/
theorem onOne_eq {e : Endpoint τ σ ℓ η} (h : e.Numbered) {f : Connection τ → Connection τ}
    (hf : ∀ c, (f c).id = c.id) (id : ConnId) :
    e.onOne id f = e.onConnections fun c => if c.id = id then f c else c := by
  have hothers (hnone : e.connection? id = none) :
      e.connections.map (fun c => if c.id = id then f c else c) = e.connections := by
    unfold Connections.map
    rw [List.map_congr_left (g := fun c => c), List.map_id']
    intro c hc
    rw [if_neg]
    intro hid
    rw [← hid, h.connection?_of_mem hc] at hnone
    cases hnone
  unfold onOne onConnections
  cases hfound : e.connection? id with
  | none => rw [hothers hfound]
  | some c =>
    have hid : c.id = id := Connections.id_of_get? hfound
    dsimp only
    congr 1
    rw [Connections.put_eq_map h.distinct]
    unfold Connections.map
    congr 1
    refine List.map_congr_left fun d hd => ?_
    rw [hf, hid]
    by_cases hsame : d.id = id
    · have hd' : d = c := h.eq_of_id hd (Connections.mem_of_get? hfound) (hsame.trans hid.symm)
      rw [if_pos hsame, if_pos hsame, hd']
    · rw [if_neg hsame, if_neg hsame]

end Endpoint

/-! ## Where connections come from -/

namespace Connection

variable {τ : Type}

/-- Commands of a kind are put to a connection, one after another. -/
def Queues (Q : Command → Prop) : Connection τ → Connection τ → Prop :=
  Relation.ReflTransGen fun c d => ∃ command, Q command ∧ d = (c.queueCommand false command).2

theorem Queues.converses {Q : Command → Prop} {c d : Connection τ} (h : Queues Q c d) :
    Converses Q c d := by
  induction h with
  | refl => exact .refl c
  | tail _ hlast ih =>
    obtain ⟨command, hcommand, rfl⟩ := hlast
    exact ih.trans (converses_queueCommand hcommand false _)

end Connection

/-- Whatever commands of a kind are queued, each connection comes from one that was there. -/
theorem Connections.keeps_queues {τ : Type} (Q : Command → Prop) (start : Connections τ) :
    Connections.Keeps Q fun t => ∀ d ∈ t.items, ∃ c ∈ start.items, Connection.Queues Q c d where
  queue := by
    intro t id command hcommand h
    unfold queueCommand
    split
    · exact h
    · next c hc =>
      intro d hd
      rcases mem_putFirst hd with rfl | hd
      · obtain ⟨b, hb, hqueues⟩ := h c (mem_of_get? hc)
        exact ⟨b, hb, hqueues.tail ⟨command, hcommand, rfl⟩⟩
      · exact h d hd
  queueTo := by
    intro t peer command hcommand h
    unfold queueCommandTo
    split
    · exact h
    · next c hc =>
      intro d hd
      rcases mem_putFirst hd with rfl | hd
      · obtain ⟨b, hb, hqueues⟩ := h c (List.mem_of_find?_eq_some hc)
        exact ⟨b, hb, hqueues.tail ⟨command, hcommand, rfl⟩⟩
      · exact h d hd

namespace Endpoint

variable {τ σ ℓ η : Type}

/-- What a connection is sent when the status changes, if it does. -/
def announceTo (old new : DeviceStatus) (c : Connection τ) : Connection τ :=
  if new = old then c else if isSubscriber c then c.send (.status new.bits) else c

theorem id_announceTo (old new : DeviceStatus) (c : Connection τ) :
    (announceTo old new c).id = c.id := by
  unfold announceTo
  split
  · rfl
  · split <;> rfl

theorem map_announceTo_self (s : DeviceStatus) (t : Connections τ) :
    t.map (announceTo s s) = t := by
  have hnone : announceTo (τ := τ) s s = fun c => c := funext fun c => if_pos rfl
  unfold Connections.map
  rw [hnone, List.map_id']

theorem pending_onOne (id : ConnId) (f : Connection τ → Connection τ) (e : Endpoint τ σ ℓ η) :
    (e.onOne id f).pending = e.pending := by
  unfold onOne
  split <;> rfl

theorem pending_setStatus (mask bits : UInt32) (e : Endpoint τ σ ℓ η) :
    (e.setStatus mask bits).pending = e.pending := by
  unfold setStatus
  dsimp only
  split <;> rfl

theorem connections_setStatus (mask bits : UInt32) (e : Endpoint τ σ ℓ η) :
    (e.setStatus mask bits).connections =
      e.connections.map (announceTo e.status (e.setStatus mask bits).status) := by
  unfold setStatus
  dsimp only
  split
  · exact (map_announceTo_self _ _).symm
  · next hnew =>
    have hsent : announceTo (τ := τ) e.status (e.status.update mask bits) = fun c =>
        if isSubscriber c then c.send (.status (e.status.update mask bits).bits) else c :=
      funext fun c => if_neg hnew
    exact congrArg e.connections.map hsent.symm

theorem connections_runDevice (w : Wiring τ σ ℓ η) (e : Endpoint τ σ ℓ η) :
    (e.runDevice w).connections =
      e.connections.map (announceTo e.status (e.runDevice w).status) := by
  unfold runDevice
  dsimp only
  split
  · exact connections_setStatus _ _ _
  · exact (map_announceTo_self _ _).symm

/-- A child as it is taken in. -/
def helperOf (spec : HelperSpec) (child : StartedHelper τ) (deadline : Option Instant)
    (now : Instant) (id : ConnId) : Connection τ :=
  { Connection.overStream id .helper spec.name child.stream now with
    helper := some {
      pid := child.pid, path := spec.path, deadline, hasInput := spec.withInput,
      errors := some child.errors } }

/-- A child whose time cannot be limited is not taken in. -/
theorem adopt_of_deadline {spec : HelperSpec} {now : Instant} {cause : LinkError}
    (h : deadline spec now = .error cause) (child : StartedHelper τ) (e : Endpoint τ σ ℓ η) :
    e.adopt spec (.ok child) now = .error cause := by
  unfold adopt
  rw [h]
  rfl

theorem adopt_of_deadline_ok {spec : HelperSpec} {now : Instant} {limit : Option Instant}
    (h : deadline spec now = .ok limit) (child : StartedHelper τ) (e : Endpoint τ σ ℓ η) :
    e.adopt spec (.ok child) now = .ok (e.enter (helperOf spec child limit now)) := by
  unfold adopt
  rw [h]
  rfl

theorem queueCommand_eq_onOne (id : ConnId) (command : Command) (e : Endpoint τ σ ℓ η) :
    (e.queueCommand id command).2 = e.onOne id fun c => (c.queueCommand false command).2 := by
  unfold queueCommand Connections.queueCommand onOne connection?
  cases e.connections.get? id <;> rfl

theorem connections_hear (w : Wiring τ σ ℓ η) (id : ConnId) (now : Instant) (bytes : Bytes)
    (e : Endpoint τ σ ℓ η) : (e.hear w id now bytes).connections =
      (e.onOne id fun c => (e.heard w now bytes c).conn).connections := by
  unfold hear onOne
  split <;> rfl

theorem items_readEach (w : Wiring τ σ ℓ η) (p : Pass τ) (items : List (Connection τ))
    (own : Local σ) : ∀ d ∈ (readEach w p items own).2.1, ∃ c ∈ items, ∃ own,
      d = (readOne w p ⟨c, own⟩).2.conn := by
  induction items generalizing own with
  | nil => simp [readEach]
  | cons c rest ih =>
    intro d hd
    rcases List.mem_cons.1 hd with rfl | hd
    · exact ⟨c, List.mem_cons_self, own, rfl⟩
    · obtain ⟨b, hb, hread⟩ := ih _ d hd
      exact ⟨b, List.mem_cons_of_mem _ hb, hread⟩

theorem id_readOne (w : Wiring τ σ ℓ η) (p : Pass τ) (t : Turn τ σ) :
    (readOne w p t).2.conn.id = t.conn.id := by
  unfold readOne
  dsimp only
  rw [Connection.id_errorPass,
    (Connection.converses_readPass (Q := fun _ => True) w.transport w.device p.now _).id]
  exact Connection.id_pollConnect _ _ _

theorem ids_readEach (w : Wiring τ σ ℓ η) (p : Pass τ) (items : List (Connection τ))
    (own : Local σ) : (readEach w p items own).2.1.map (·.id) = items.map (·.id) := by
  induction items generalizing own with
  | nil => rfl
  | cons c rest ih =>
    unfold readEach
    dsimp only
    rw [List.map_cons, List.map_cons, ih, id_readOne]

theorem id_writeOne (w : Wiring τ σ ℓ η) (c : Connection τ) : (writeOne w c).2.id = c.id := by
  unfold writeOne
  split
  · exact Connection.id_writePass w.transport c
  · rfl

/-- **A collection** finds the exit status of the child behind a connection, or leaves the
connection alone. -/
theorem reapOne_cases (exits : Pid → Option ChildExit) (c : Connection τ) :
    (∃ h exit, c.helper = some h ∧ c.isReapable exits = true ∧
        reapOne exits c = c.childReturned exit) ∨
      (c.isReapable exits = false ∧ reapOne exits c = c) := by
  unfold reapOne Connection.isReapable
  cases hchild : c.helper with
  | none => exact .inr ⟨rfl, rfl⟩
  | some h =>
    rw [Option.any_some]
    dsimp only
    cases hreaped : h.reaped with
    | true => exact .inr ⟨rfl, rfl⟩
    | false =>
      cases hexit : exits h.pid with
      | none => exact .inr ⟨rfl, rfl⟩
      | some exit => exact .inl ⟨h, exit, rfl, rfl, rfl⟩

theorem id_reapOne (exits : Pid → Option ChildExit) (c : Connection τ) :
    (reapOne exits c).id = c.id := by
  rcases reapOne_cases exits c with ⟨-, exit, -, -, hreap⟩ | ⟨-, hreap⟩
  · rw [hreap]
    exact Connection.id_childReturned exit c
  · rw [hreap]

end Endpoint

namespace Happening

variable {τ σ ℓ η : Type}

/-- The connection that comes, if one does. -/
def newcomer? (e : Endpoint τ σ ℓ η) : Happening τ ℓ → Option (Connection τ)
  | add kind name now => some (.inMemory (e.connections.lastId + 1) kind name now)
  | connect name address kind now =>
    some (.connecting (e.connections.lastId + 1) kind name address now)
  | attach name kind stream now =>
    some (.overStream (e.connections.lastId + 1) kind name stream now)
  | accept now arrival =>
    some (.overStream (e.connections.lastId + 1) .client arrival.1 arrival.2 now)
  | adopt spec started now =>
    match started, Endpoint.deadline spec now with
    | .ok child, .ok limit =>
      some (Endpoint.helperOf spec child limit now (e.connections.lastId + 1))
    | _, _ => none
  | _ => none

/-- What becomes of a connection that was there; the listeners put commands of a kind to it. -/
def Treats (w : Wiring τ σ ℓ η) (Q : Command → Prop) (e : Endpoint τ σ ℓ η) :
    Happening τ ℓ → Connection τ → Connection τ → Prop
  | queue conn command, c, d => d = if c.id = conn then (c.queueCommand false command).2 else c
  | queueTo _ command, c, d => d = c ∨ d = (c.queueCommand false command).2
  | hear conn now bytes, c, d => d = if c.id = conn then (e.heard w now bytes c).conn else c
  | askClose conn, c, d => d = if c.id = conn then c.close .requested else c
  | askCloseAll, c, d => d = c.close .requested
  | setStatus mask bits, c, d => d = Endpoint.announceTo e.status (e.setStatus mask bits).status c
  | infoAll, c, d => d = if Endpoint.isSubscriber c then c.sendAll e.values else c
  | message sec usec severity text, c, d =>
    d = if Endpoint.isSubscriber c then c.send (.message ⟨sec, usec, e.name, severity, text⟩) else c
  | read p, c, d => ∃ own, d = (Endpoint.readOne w p ⟨c, own⟩).2.conn
  | write, c, d => d = (Endpoint.writeOne w c).2
  | deliver, c, d => Connection.Queues Q { Endpoint.emptied c with events := [] } d
  | drop, c, d => d = c ∧ Connections.isSpent c = false
  | reap exits, c, d => d = Endpoint.emptied (Endpoint.reapOne exits c)
  | watch now, c, d => d = c.idle now
  | runDevice, c, d => d = Endpoint.announceTo e.status (e.runDevice w).status c
  | broadcastDirty, c, d => d = if e.values.hasDirty then c.broadcastDirty e.values else c
  | takeOutbox, c, d => d = Endpoint.emptied c
  | takeOutput conn, c, d => d = if c.id = conn then { c with output := [] } else c
  | _, c, d => d = c

/-- **Whoever comes** is a connection over nothing, one that is still to be established, one over a
stream, or a child. -/
theorem newcomer_cases {e : Endpoint τ σ ℓ η} {h : Happening τ ℓ} {c : Connection τ}
    (hc : h.newcomer? e = some c) :
    (∃ kind name now, c = .inMemory (e.connections.lastId + 1) kind name now) ∨
      (∃ kind name address now,
        c = .connecting (e.connections.lastId + 1) kind name address now) ∨
      (∃ kind name stream now, c = .overStream (e.connections.lastId + 1) kind name stream now) ∨
      ∃ spec child limit now,
        c = Endpoint.helperOf spec child limit now (e.connections.lastId + 1) := by
  cases h with
  | add kind name now => exact .inl ⟨_, _, _, (Option.some.inj hc).symm⟩
  | connect name address kind now => exact .inr (.inl ⟨_, _, _, _, (Option.some.inj hc).symm⟩)
  | attach name kind stream now =>
    exact .inr (.inr (.inl ⟨_, _, _, _, (Option.some.inj hc).symm⟩))
  | accept now arrival => exact .inr (.inr (.inl ⟨_, _, _, _, (Option.some.inj hc).symm⟩))
  | adopt spec started now =>
    simp only [newcomer?] at hc
    split at hc
    · exact .inr (.inr (.inr ⟨_, _, _, _, (Option.some.inj hc).symm⟩))
    · cases hc
  | _ => cases hc

theorem id_of_newcomer {e : Endpoint τ σ ℓ η} {h : Happening τ ℓ} {c : Connection τ}
    (hc : h.newcomer? e = some c) : c.id = e.connections.lastId + 1 := by
  rcases newcomer_cases hc with ⟨_, _, _, rfl⟩ | ⟨_, _, _, _, rfl⟩ | ⟨_, _, _, _, rfl⟩ |
    ⟨_, _, _, _, rfl⟩ <;> rfl

/-- A child is taken in, or nothing happens. -/
theorem apply_adopt (w : Wiring τ σ ℓ η) (spec : HelperSpec)
    (started : Except String (StartedHelper τ)) (now : Instant) (e : Endpoint τ σ ℓ η) :
    ((adopt spec started now : Happening τ ℓ).newcomer? e = none ∧
        (adopt spec started now).apply w e = e) ∨
      ∃ child limit, (adopt spec started now : Happening τ ℓ).newcomer? e =
          some (Endpoint.helperOf spec child limit now (e.connections.lastId + 1)) ∧
        (adopt spec started now).apply w e =
          (e.enter (Endpoint.helperOf spec child limit now)).2 := by
  cases started with
  | error reason => exact .inl ⟨rfl, rfl⟩
  | ok child =>
    cases hdeadline : Endpoint.deadline spec now with
    | error cause =>
      left
      simp only [newcomer?, apply, hdeadline, Endpoint.adopt_of_deadline hdeadline, and_self]
    | ok limit =>
      right
      refine ⟨child, limit, ?_, ?_⟩
      · simp only [newcomer?, hdeadline]
      · simp only [apply, Endpoint.adopt_of_deadline_ok hdeadline]

theorem connections_of_newcomer (w : Wiring τ σ ℓ η) {e : Endpoint τ σ ℓ η} {h : Happening τ ℓ}
    {c : Connection τ} (hc : h.newcomer? e = some c) : (h.apply w e).connections =
      { items := e.connections.items ++ [e.welcome c], lastId := e.connections.lastId + 1 } := by
  cases h with
  | add kind name now => cases hc; rfl
  | connect name address kind now => cases hc; rfl
  | attach name kind stream now => cases hc; rfl
  | accept now arrival => cases hc; rfl
  | adopt spec started now =>
    rcases apply_adopt w spec started now e with ⟨hnew, -⟩ | ⟨child, limit, hnew, happly⟩
    · cases hnew.symm.trans hc
    · obtain rfl := Option.some.inj (hnew.symm.trans hc)
      rw [happly]
      rfl
  | _ => cases hc

/-- Nobody comes and nobody is dropped: the numbers stay. -/
theorem numbers_apply (w : Wiring τ σ ℓ η) {e : Endpoint τ σ ℓ η} {h : Happening τ ℓ}
    (hnone : h.newcomer? e = none) (hdrop : h ≠ .drop) (hnumber : h ≠ .number) :
    (h.apply w e).connections.ids = e.connections.ids ∧
      (h.apply w e).connections.lastId = e.connections.lastId := by
  have hone {f : Connection τ → Connection τ} (id : ConnId) (hf : ∀ c, (f c).id = c.id) :
      (e.onOne id f).connections.ids = e.connections.ids ∧
        (e.onOne id f).connections.lastId = e.connections.lastId := by
    unfold Endpoint.onOne
    split
    · exact ⟨rfl, rfl⟩
    · exact ⟨Connections.ids_put _ _, rfl⟩
  cases h with
  | touch _ => exact ⟨rfl, rfl⟩
  | listen _ => exact ⟨rfl, rfl⟩
  | post _ => exact ⟨rfl, rfl⟩
  | number => exact absurd rfl hnumber
  | add _ _ _ => cases hnone
  | connect _ _ _ _ => cases hnone
  | attach _ _ _ _ => cases hnone
  | accept _ _ => cases hnone
  | adopt spec started now =>
    rcases apply_adopt w spec started now e with ⟨-, happly⟩ | ⟨child, limit, hnew, -⟩
    · rw [happly]
      exact ⟨rfl, rfl⟩
    · cases hnone.symm.trans hnew
  | queue conn command =>
    exact ⟨Connections.ids_queueCommand _ _ _, Connections.lastId_queueCommand _ _ _⟩
  | queueTo peer command =>
    exact ⟨Connections.ids_queueCommandTo _ _ _, Connections.lastId_queueCommandTo _ _ _⟩
  | hear conn now bytes =>
    show (e.hear w conn now bytes).connections.ids = _ ∧
      (e.hear w conn now bytes).connections.lastId = _
    unfold Endpoint.hear
    split
    · exact ⟨rfl, rfl⟩
    · exact ⟨Connections.ids_put _ _, rfl⟩
  | askClose conn =>
    exact hone conn fun c => (Connection.converses_close (Q := fun _ => True) _ c).id
  | askCloseAll =>
    have hid (c : Connection τ) : (c.close .requested).id = c.id :=
      (Connection.converses_close (Q := fun _ => True) _ c).id
    exact ⟨Connections.ids_map hid _, rfl⟩
  | setStatus mask bits =>
    show (e.setStatus mask bits).connections.ids = _ ∧
      (e.setStatus mask bits).connections.lastId = _
    rw [Endpoint.connections_setStatus]
    exact ⟨Connections.ids_map (Endpoint.id_announceTo _ _) _, rfl⟩
  | infoAll =>
    refine ⟨Connections.ids_map (fun c => ?_) _, rfl⟩
    dsimp only
    split
    · exact (Connection.converses_sendValues (Q := fun _ => True) _ c).id
    · rfl
  | message _ _ _ _ =>
    refine ⟨Connections.ids_map (fun c => ?_) _, rfl⟩
    dsimp only
    split <;> rfl
  | read p => exact ⟨Endpoint.ids_readEach w p _ _, rfl⟩
  | write =>
    refine ⟨?_, rfl⟩
    show ((e.connections.items.map (Endpoint.writeOne w)).map Prod.snd).map (·.id) = _
    rw [List.map_map, List.map_map]
    exact List.map_congr_left fun c _ => Endpoint.id_writeOne w c
  | deliver =>
    refine Bus.kept_deliverAll (Connections.keeps_numbers _ _)
      (fun _ _ => Reaction.orders_any _) _ ?_
    exact ⟨(Connections.ids_map (f := fun c => { c with events := [] }) (fun _ => rfl) _).trans
      (Connections.ids_map (f := Endpoint.emptied) (fun _ => rfl) _), rfl⟩
  | drop => exact absurd rfl hdrop
  | reap exits =>
    exact ⟨(Connections.ids_map (f := Endpoint.emptied) (fun _ => rfl) _).trans
      (Connections.ids_map (Endpoint.id_reapOne exits) _), rfl⟩
  | watch now => exact ⟨Connections.ids_map (Connection.id_idle now) _, rfl⟩
  | runDevice =>
    show (e.runDevice w).connections.ids = _ ∧ (e.runDevice w).connections.lastId = _
    rw [Endpoint.connections_runDevice]
    exact ⟨Connections.ids_map (Endpoint.id_announceTo _ _) _, rfl⟩
  | broadcastDirty =>
    show e.broadcastDirty.connections.ids = _ ∧ e.broadcastDirty.connections.lastId = _
    unfold Endpoint.broadcastDirty
    split
    · exact ⟨Connections.ids_map (fun c =>
        (Connection.converses_broadcastDirty (Q := fun _ => True) _ c).id) _, rfl⟩
    · exact ⟨rfl, rfl⟩
  | takeOutbox => exact ⟨Connections.ids_map (f := Endpoint.emptied) (fun _ => rfl) _, rfl⟩
  | takeOutput conn => exact hone conn fun _ => rfl

/-- **Numbers.** Whatever happens, the connections stay in the order of their numbers. -/
theorem numbered_apply (w : Wiring τ σ ℓ η) {e : Endpoint τ σ ℓ η} (hn : e.Numbered)
    (h : Happening τ ℓ) : (h.apply w e).Numbered := by
  cases hnew : h.newcomer? e with
  | some c =>
    have hconns := connections_of_newcomer w hnew
    refine hn.insert ((Endpoint.id_welcome c e).trans (id_of_newcomer hnew)) ?_ ?_
    · rw [hconns]
    · rw [hconns]
  | none =>
    by_cases hdrop : h = .drop
    · subst hdrop
      have hsub : (Happening.apply w .drop e).connections.ids.Sublist e.connections.ids :=
        List.filter_sublist.map _
      exact ⟨hn.ordered.sublist hsub, fun id hid => hn.given id (hsub.subset hid)⟩
    · by_cases hnumber : h = .number
      · subst hnumber
        exact ⟨hn.ordered, fun id hid => Nat.le_succ_of_le (hn.given id hid)⟩
      · obtain ⟨hids, hlast⟩ := numbers_apply w hnew hdrop hnumber
        exact hn.of_ids hids hlast

/-- A connection that is treated is still the same one. -/
theorem Treats.id {w : Wiring τ σ ℓ η} {Q : Command → Prop} {e : Endpoint τ σ ℓ η}
    {h : Happening τ ℓ} {c d : Connection τ} (htreats : h.Treats w Q e c d) : d.id = c.id := by
  cases h with
  | queue conn command =>
    subst htreats
    split
    · exact (Connection.converses_queueCommand (Q := fun _ => True) trivial false c).id
    · rfl
  | queueTo peer command =>
    rcases htreats with rfl | rfl
    · rfl
    · exact (Connection.converses_queueCommand (Q := fun _ => True) trivial false c).id
  | hear conn now bytes =>
    subst htreats
    split
    · exact (Connection.converses_receive (Q := fun _ => True) _ _ _ _).id
    · rfl
  | askClose conn =>
    subst htreats
    split
    · exact (Connection.converses_close (Q := fun _ => True) _ c).id
    · rfl
  | askCloseAll =>
    subst htreats
    exact (Connection.converses_close (Q := fun _ => True) _ c).id
  | setStatus mask bits => subst htreats; exact Endpoint.id_announceTo _ _ c
  | infoAll =>
    subst htreats
    split
    · exact (Connection.converses_sendValues (Q := fun _ => True) _ c).id
    · rfl
  | message _ _ _ _ =>
    subst htreats
    split <;> rfl
  | read p =>
    obtain ⟨own, rfl⟩ := htreats
    exact Endpoint.id_readOne w p _
  | write => subst htreats; exact Endpoint.id_writeOne w c
  | deliver => exact (Connection.Queues.converses htreats).id
  | drop => rw [htreats.1]
  | reap exits => subst htreats; exact Endpoint.id_reapOne exits c
  | watch now => subst htreats; exact Connection.id_idle now c
  | runDevice => subst htreats; exact Endpoint.id_announceTo _ _ c
  | broadcastDirty =>
    subst htreats
    split
    · exact (Connection.converses_broadcastDirty (Q := fun _ => True) _ c).id
    · rfl
  | takeOutbox => subst htreats; rfl
  | takeOutput conn =>
    subst htreats
    split <;> rfl
  | _ => subst htreats; rfl

/-- **Origins.** Each connection comes from one that was there, or is the one that came. -/
theorem origin {w : Wiring τ σ ℓ η} {Q : Command → Prop}
    (hreact : ∀ listener event, (w.react listener event).Orders Q) {e : Endpoint τ σ ℓ η}
    (hn : e.Numbered) {h : Happening τ ℓ} {d : Connection τ}
    (hd : d ∈ (h.apply w e).connections.items) :
    (∃ c ∈ e.connections.items, h.Treats w Q e c d) ∨
      ∃ c, h.newcomer? e = some c ∧ d = e.welcome c := by
  have hmap {x : Connection τ} {f : Connection τ → Connection τ} {items : List (Connection τ)}
      (hx : x ∈ items.map f) : ∃ c ∈ items, x = f c := by
    obtain ⟨c, hc, rfl⟩ := List.mem_map.1 hx
    exact ⟨c, hc, rfl⟩
  cases hnew : h.newcomer? e with
  | some c =>
    rw [connections_of_newcomer w hnew] at hd
    rcases List.mem_append.1 hd with hd | hd
    · left
      refine ⟨d, hd, ?_⟩
      cases h with
      | add _ _ _ => rfl
      | connect _ _ _ _ => rfl
      | attach _ _ _ _ => rfl
      | accept _ _ => rfl
      | adopt _ _ _ => rfl
      | _ => cases hnew
    · exact .inr ⟨c, rfl, List.mem_singleton.1 hd⟩
  | none =>
    left
    cases h with
    | add _ _ _ => cases hnew
    | connect _ _ _ _ => cases hnew
    | attach _ _ _ _ => cases hnew
    | accept _ _ => cases hnew
    | adopt spec started now =>
      refine ⟨d, ?_, rfl⟩
      rcases apply_adopt w spec started now e with ⟨-, happly⟩ | ⟨child, limit, hsome, -⟩
      · rwa [happly] at hd
      · cases hnew.symm.trans hsome
    | queue conn command =>
      have hone := Endpoint.onOne_eq hn (f := fun c => (c.queueCommand false command).2)
        (fun c => (Connection.converses_queueCommand (Q := fun _ => True) trivial false c).id) conn
      simp only [apply, Endpoint.queueCommand_eq_onOne, hone] at hd
      exact hmap hd
    | queueTo peer command =>
      simp only [apply, Endpoint.queueCommandTo, Connections.queueCommandTo] at hd
      split at hd
      · exact ⟨d, hd, .inl rfl⟩
      · next c hc =>
        rcases Connections.mem_putFirst hd with rfl | hd
        · exact ⟨c, List.mem_of_find?_eq_some hc, .inr rfl⟩
        · exact ⟨d, hd, .inl rfl⟩
    | hear conn now bytes =>
      have hone := Endpoint.onOne_eq hn (f := fun c => (e.heard w now bytes c).conn)
        (fun c => (Connection.converses_receive (Q := fun _ => True) _ _ _ _).id) conn
      simp only [apply, Endpoint.connections_hear, hone] at hd
      exact hmap hd
    | askClose conn =>
      have hone := Endpoint.onOne_eq hn (f := (·.close .requested))
        (fun c => (Connection.converses_close (Q := fun _ => True) _ c).id) conn
      simp only [apply, hone] at hd
      exact hmap hd
    | askCloseAll => exact hmap hd
    | setStatus mask bits =>
      simp only [apply, Endpoint.connections_setStatus] at hd
      exact hmap hd
    | infoAll => exact hmap hd
    | message _ _ _ _ => exact hmap hd
    | read p => exact Endpoint.items_readEach w p _ _ d hd
    | write =>
      obtain ⟨r, hr, rfl⟩ := List.mem_map.1 hd
      obtain ⟨c, hc, rfl⟩ := List.mem_map.1 hr
      exact ⟨c, hc, rfl⟩
    | deliver =>
      have hkeeps := Bus.kept_deliverAll
        (Connections.keeps_queues Q e.collect.connections.takeEvents.2) hreact
        (e.pending ++ e.collect.connections.takeEvents.1)
        (s := ⟨e.listeners, e.collect.connections.takeEvents.2, e.outbox.journal⟩)
        fun c hc => ⟨c, hc, .refl⟩
      obtain ⟨b, hb, hqueues⟩ := hkeeps d hd
      obtain ⟨a, ha, rfl⟩ := hmap hb
      obtain ⟨c, hc, rfl⟩ := List.mem_map.1 ha
      exact ⟨c, hc, hqueues⟩
    | drop =>
      obtain ⟨hmem, hspent⟩ := List.mem_filter.1 hd
      exact ⟨d, hmem, rfl, by simpa using hspent⟩
    | reap exits =>
      obtain ⟨b, hb, rfl⟩ := hmap hd
      obtain ⟨c, hc, rfl⟩ := List.mem_map.1 hb
      exact ⟨c, hc, rfl⟩
    | watch now => exact hmap hd
    | runDevice =>
      simp only [apply, Endpoint.connections_runDevice] at hd
      exact hmap hd
    | broadcastDirty =>
      simp only [apply, Endpoint.broadcastDirty] at hd
      split at hd
      · next hdirty =>
        obtain ⟨c, hc, rfl⟩ := hmap hd
        exact ⟨c, hc, (if_pos hdirty).symm⟩
      · next hclean => exact ⟨d, hd, (if_neg hclean).symm⟩
    | takeOutbox => exact hmap hd
    | takeOutput conn =>
      have hone := Endpoint.onOne_eq hn (f := fun c => c.takeOutput.2) (fun _ => rfl) conn
      simp only [apply, hone] at hd
      exact hmap hd
    | _ => exact ⟨d, hd, rfl⟩

end Happening

end Observatory
