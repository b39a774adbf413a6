import Observatory.Connection.Wire
import Observatory.Proofs.Connection.Reports
import Observatory.Proofs.Endpoint.Origins
/-!
# Delivery in rounds

Events are delivered in rounds: everything that is due is taken and handed to the bus, event by
event, and that is repeated until nothing is due. Listeners act on connections only by queueing
commands, and commands report nothing by themselves. So the second round never finds anything,
whatever the listeners do, and a connection is dropped only after its end was delivered.

* `Endpoint.due`, `Endpoint.Rounds` — what is due, and the repetition of rounds.
* `Endpoint.rounds_iff` — one round, or none when nothing is due.
* `Happening.handed`, `Happening.announces_run` — the end of every closed connection was handed over
  or is due.
* `Endpoint.delivery_complete` — every operation that ends with a delivery, after every run.
-/

namespace Observatory

/-! ## Listeners report nothing -/

theorem Connection.Queues.reports {τ : Type} {Q : Command → Prop} {c d : Connection τ}
    (h : Connection.Queues Q c d) :
    d.id = c.id ∧ d.name = c.name ∧ d.events = c.events ∧ d.state = c.state := by
  have hdealt := h.converses
  refine ⟨hdealt.id, hdealt.name, ?_⟩
  clear hdealt
  induction h with
  | refl => exact ⟨rfl, rfl⟩
  | tail _ hlast ih =>
    obtain ⟨command, -, rfl⟩ := hlast
    obtain ⟨hevents, hstate⟩ := Connection.events_queueCommand false command _
    exact ⟨hevents.trans ih.1, hstate.trans ih.2⟩

/-- **Listeners add nothing to what connections have to report**, whatever events they are told of
and whatever they post and queue. -/
theorem Bus.events_deliverAll {τ ℓ η : Type} (react : Bus.React τ ℓ η) (events : List Event)
    (s : Stage τ ℓ η) {d : Connection τ}
    (hd : d ∈ (events.foldl (Bus.deliver react) s).connections.items) :
    ∃ c ∈ s.connections.items, d.id = c.id ∧ d.events = c.events := by
  obtain ⟨c, hc, hqueues⟩ := Bus.kept_deliverAll
    (Connections.keeps_queues (fun _ => True) s.connections)
    (fun _ _ => Reaction.orders_any _)
    events (fun c hc => ⟨c, hc, .refl⟩) d hd
  obtain ⟨hid, -, hevents, -⟩ := hqueues.reports
  exact ⟨c, hc, hid, hevents⟩

namespace Endpoint

variable {τ σ ℓ η : Type}

/-! ## Rounds -/

/-- What is to be delivered: events of the caller first, then those of the connections, one
connection after another, each in the order of its reports. -/
def due (e : Endpoint τ σ ℓ η) : List Event :=
  e.pending ++ e.connections.items.flatMap (·.events)

/-- One round: everything that is due is taken and handed to the bus. -/
def round (w : Wiring τ σ ℓ η) (e : Endpoint τ σ ℓ η) : Endpoint τ σ ℓ η :=
  let stage := e.due.foldl (Bus.deliver w.react)
    ⟨e.listeners, e.connections.takeEvents.2, e.outbox.journal⟩
  { e with
    pending := []
    listeners := stage.listeners
    connections := stage.connections
    outbox := { e.outbox with journal := stage.journal } }

/-- Rounds until nothing is due, with what was handed over in each. -/
inductive Rounds (w : Wiring τ σ ℓ η) :
    Endpoint τ σ ℓ η → List (List Event) → Endpoint τ σ ℓ η → Prop
  | quiet {e : Endpoint τ σ ℓ η} (h : e.due = []) : Rounds w e [] e
  | again {e e' : Endpoint τ σ ℓ η} {rounds : List (List Event)} (h : e.due ≠ [])
    (hrest : Rounds w (e.round w) rounds e') : Rounds w e (e.due :: rounds) e'

theorem due_eq_nil_iff (e : Endpoint τ σ ℓ η) :
    e.due = [] ↔ e.pending = [] ∧ ∀ c ∈ e.connections.items, c.events = [] := by
  unfold due
  rw [List.append_eq_nil_iff, List.flatMap_eq_nil_iff]

/-- **After one round nothing is due**, whatever the listeners did in it. -/
theorem due_round (w : Wiring τ σ ℓ η) (e : Endpoint τ σ ℓ η) : (e.round w).due = [] := by
  refine (due_eq_nil_iff _).2 ⟨rfl, fun d hd => ?_⟩
  obtain ⟨c, hc, -, hevents⟩ := Bus.events_deliverAll w.react e.due _ hd
  obtain ⟨b, -, rfl⟩ := List.mem_map.1 hc
  exact hevents

/-- A round in which nothing is due changes nothing. -/
theorem round_of_quiet (w : Wiring τ σ ℓ η) {e : Endpoint τ σ ℓ η} (h : e.due = []) :
    e.round w = e := by
  obtain ⟨hpending, hevents⟩ := (due_eq_nil_iff e).1 h
  have htaken : e.connections.takeEvents.2 = e.connections := by
    have hsame : e.connections.items.map (fun c => { c with events := [] }) =
        e.connections.items := by
      rw [List.map_congr_left (g := fun c => c), List.map_id']
      intro c hc
      rw [← hevents c hc]
    exact congrArg (fun items => { e.connections with items }) hsame
  unfold round
  rw [h, htaken]
  dsimp only [List.foldl_nil]
  rw [← hpending]

theorem due_collect (e : Endpoint τ σ ℓ η) : e.collect.due = e.due := by
  have hevents : (e.connections.items.map emptied).flatMap (·.events) =
      e.connections.items.flatMap (·.events) := by
    rw [List.flatMap_map]
    rfl
  exact congrArg (e.pending ++ ·) hevents

/-- A delivery collects what the connections have to tell their owner and is then one round. -/
theorem deliver_eq (w : Wiring τ σ ℓ η) (e : Endpoint τ σ ℓ η) :
    e.deliver w = (!e.due.isEmpty, e.collect.round w) := by
  rw [← due_collect]
  rfl

/-- **Rounds come to an end.** There is one round that hands over what is due, or none when nothing
is. -/
theorem rounds_iff (w : Wiring τ σ ℓ η) (e : Endpoint τ σ ℓ η) (rounds : List (List Event))
    (d : Endpoint τ σ ℓ η) : Rounds w e.collect rounds d ↔
      rounds = (if e.due = [] then [] else [e.due]) ∧ d = (e.deliver w).2 := by
  rw [← due_collect, deliver_eq]
  constructor
  · intro h
    cases h with
    | quiet hquiet =>
      rw [if_pos hquiet, round_of_quiet w hquiet]
      exact ⟨rfl, rfl⟩
    | again hdue hrest =>
      rw [if_neg hdue]
      cases hrest with
      | quiet _ => exact ⟨rfl, rfl⟩
      | again hmore _ => exact absurd (due_round w _) hmore
  · rintro ⟨rfl, rfl⟩
    split
    · next hquiet =>
      rw [round_of_quiet w hquiet]
      exact .quiet hquiet
    · next hdue => exact .again hdue (.quiet (due_round w _))

theorem due_deliver (w : Wiring τ σ ℓ η) (e : Endpoint τ σ ℓ η) : (e.deliver w).2.due = [] := by
  rw [deliver_eq]
  exact due_round w e.collect

/-! ## Nothing is lost before a delivery -/

/-- What the connection of a number has reported and nobody has taken. -/
def eventsOf (id : ConnId) (e : Endpoint τ σ ℓ η) : List Event :=
  ((e.connection? id).map (·.events)).getD []

theorem Numbered.eventsOf_of_mem {e : Endpoint τ σ ℓ η} (h : e.Numbered) {c : Connection τ}
    (hc : c ∈ e.connections.items) : e.eventsOf c.id = c.events := by
  unfold eventsOf
  rw [h.connection?_of_mem hc]
  rfl

/-- A connection with a number that is in use is found under it. -/
theorem exists_of_mem_ids {e : Endpoint τ σ ℓ η} {id : ConnId} (h : id ∈ e.connections.ids) :
    ∃ c ∈ e.connections.items, c.id = id := by
  obtain ⟨c, hc, rfl⟩ := List.mem_map.1 h
  exact ⟨c, hc, rfl⟩

theorem mem_ids_of_connection? {e : Endpoint τ σ ℓ η} {id : ConnId} {c : Connection τ}
    (h : e.connection? id = some c) : id ∈ e.connections.ids := by
  rw [← Connections.id_of_get? h]
  exact List.mem_map_of_mem (Connections.mem_of_get? h)

/-- Nobody has a number that is still to be given out. -/
theorem Numbered.connection?_of_unborn {e : Endpoint τ σ ℓ η} (h : e.Numbered) {id : ConnId}
    (hid : e.connections.lastId < id) : e.connection? id = none := by
  cases hc : e.connection? id with
  | none => rfl
  | some c => exact absurd hid (Nat.not_lt_of_le (h.given id (mem_ids_of_connection? hc)))

theorem reports_readOne (w : Wiring τ σ ℓ η) (p : Pass τ) (t : Turn τ σ) :
    Connection.Reports t.conn (readOne w p t).2.conn := by
  unfold readOne
  dsimp only
  have hconnect := Connection.reports_pollConnect (p.connects t.conn.id) p.now t.conn
  have hread := (Connection.proceeds_readPass w.transport w.device p.now
    { t with conn := (t.conn.pollConnect (p.connects t.conn.id) p.now).2 }).reports
  exact (hconnect.trans hread).trans (Connection.reports_errorPass w.transport _)

theorem reports_announceTo (old new : DeviceStatus) (c : Connection τ) :
    Connection.Reports c (announceTo old new c) := by
  unfold announceTo
  split
  · exact .refl c
  · split
    · exact .of_state rfl rfl rfl (List.prefix_refl _)
    · exact .refl c

end Endpoint

namespace Happening

variable {τ σ ℓ η : Type} {w : Wiring τ σ ℓ η} {Q : Command → Prop} {e : Endpoint τ σ ℓ η}

/-- **Only a delivery takes events away**, and the end of a connection is always reported. -/
theorem Treats.reports {h : Happening τ ℓ} (hdeliver : h ≠ .deliver) {c d : Connection τ}
    (htreats : h.Treats w Q e c d) : Connection.Reports c d := by
  have hcommand (command : Command) : Connection.Reports c (c.queueCommand false command).2 := by
    obtain ⟨hevents, hstate⟩ := Connection.events_queueCommand false command c
    have hdealt : Connection.Converses (fun _ => True) c (c.queueCommand false command).2 :=
      Connection.converses_queueCommand trivial false c
    exact .of_state hdealt.id hdealt.name hstate ⟨[], by rw [hevents, List.append_nil]⟩
  cases h with
  | queue conn command =>
    subst htreats
    split
    · exact hcommand command
    · exact .refl c
  | queueTo peer command =>
    rcases htreats with rfl | rfl
    · exact .refl _
    · exact hcommand command
  | hear conn now bytes =>
    subst htreats
    split
    · exact (Connection.proceeds_receive w.device now bytes ⟨c, ⟨e.values, e.device⟩⟩).reports
    · exact .refl c
  | askClose conn =>
    subst htreats
    split
    · exact (Connection.proceeds_close _ c).reports
    · exact .refl c
  | askCloseAll =>
    subst htreats
    exact (Connection.proceeds_close _ c).reports
  | setStatus mask bits => subst htreats; exact Endpoint.reports_announceTo _ _ c
  | infoAll =>
    subst htreats
    split
    · exact Connection.reports_sendValues _ c
    · exact .refl c
  | message _ _ _ _ =>
    subst htreats
    split
    · exact .of_state rfl rfl rfl (List.prefix_refl _)
    · exact .refl c
  | read p =>
    obtain ⟨own, rfl⟩ := htreats
    exact Endpoint.reports_readOne w p ⟨c, own⟩
  | write =>
    subst htreats
    unfold Endpoint.writeOne
    split
    · exact Connection.reports_writePass w.transport c
    · exact .refl c
  | deliver => exact absurd rfl hdeliver
  | drop => rw [htreats.1]; exact .refl c
  | reap exits =>
    subst htreats
    have hreaped : Connection.Reports c (Endpoint.reapOne exits c) := by
      rcases Endpoint.reapOne_cases exits c with ⟨-, exit, -, -, hreap⟩ | ⟨-, hreap⟩
      · rw [hreap]
        exact Connection.reports_childReturned exit c
      · rw [hreap]
        exact .refl c
    exact hreaped.trans (.of_state rfl rfl rfl (List.prefix_refl _))
  | watch now => subst htreats; exact Connection.reports_idle now c
  | runDevice => subst htreats; exact Endpoint.reports_announceTo _ _ c
  | broadcastDirty =>
    subst htreats
    split
    · unfold Connection.broadcastDirty
      split
      · exact Connection.reports_sendValues _ c
      · exact .refl c
    · exact .refl c
  | takeOutbox => subst htreats; exact .of_state rfl rfl rfl (List.prefix_refl _)
  | takeOutput conn =>
    subst htreats
    split
    · exact .of_state rfl rfl rfl (List.prefix_refl _)
    · exact .refl c
  | _ => subst htreats; exact .refl _

/-- A connection that is no longer there was closed, and its events were delivered. -/
theorem eq_drop_of_gone (w : Wiring τ σ ℓ η) (h : Happening τ ℓ)
    {c : Connection τ} (hc : c ∈ e.connections.items)
    (hgone : (h.apply w e).connection? c.id = none) :
    h = .drop ∧ c.isClosed = true ∧ c.events = [] := by
  have hmissing : ∀ d ∈ (h.apply w e).connections.items, d.id ≠ c.id := by
    intro d hd
    simpa using List.find?_eq_none.1 hgone d hd
  by_cases hdrop : h = .drop
  · subst hdrop
    have hspent : Connections.isSpent c = true := by
      by_contra hkept
      exact hmissing c (List.mem_filter.2 ⟨hc, by simpa using hkept⟩) rfl
    simpa [Connections.isSpent, Connection.hasEvents] using hspent
  · have hids : c.id ∈ (h.apply w e).connections.ids := by
      have hid : c.id ∈ e.connections.ids := List.mem_map_of_mem hc
      cases hnew : h.newcomer? e with
      | some new =>
        rw [connections_of_newcomer w hnew]
        show c.id ∈ (e.connections.items ++ [e.welcome new]).map (·.id)
        rw [List.map_append]
        exact List.mem_append_left _ hid
      | none =>
        by_cases hnumber : h = .number
        · subst hnumber
          exact hid
        · rwa [(numbers_apply w hnew hdrop hnumber).1]
    obtain ⟨d, hd, hsame⟩ := Endpoint.exists_of_mem_ids hids
    exact absurd hsame (hmissing d hd)

/-- What becomes of the connection of a number: it stays and is treated, it comes, it goes, or there
is none before and after. -/
inductive Follows (w : Wiring τ σ ℓ η) (Q : Command → Prop) (h : Happening τ ℓ)
    (e : Endpoint τ σ ℓ η) : Option (Connection τ) → Option (Connection τ) → Prop
  | stays {c d : Connection τ} (hc : c ∈ e.connections.items) (htreats : h.Treats w Q e c d) :
    Follows w Q h e (some c) (some d)
  | comes {new : Connection τ} (hnew : h.newcomer? e = some new) :
    Follows w Q h e none (some (e.welcome new))
  | goes {c : Connection τ} (hdrop : h = .drop) (hclosed : c.isClosed = true)
    (hevents : c.events = []) : Follows w Q h e (some c) none
  | absent : Follows w Q h e none none

/-- **One connection is followed** by its number, whatever happens. -/
theorem follows (hreact : ∀ listener event, (w.react listener event).Orders Q) (hn : e.Numbered)
    (h : Happening τ ℓ) (id : ConnId) :
    h.Follows w Q e (e.connection? id) ((h.apply w e).connection? id) := by
  cases hd : (h.apply w e).connection? id with
  | none =>
    cases hc : e.connection? id with
    | none => exact .absent
    | some c =>
      obtain rfl : c.id = id := Connections.id_of_get? hc
      obtain ⟨hdrop, hclosed, hevents⟩ := eq_drop_of_gone w h (Connections.mem_of_get? hc) hd
      exact .goes hdrop hclosed hevents
  | some d =>
    obtain rfl : d.id = id := Connections.id_of_get? hd
    rcases origin hreact hn (Connections.mem_of_get? hd) with ⟨c, hc, htreats⟩ | ⟨new, hnew, rfl⟩
    · rw [htreats.id, hn.connection?_of_mem hc]
      exact .stays hc htreats
    · cases hc : e.connection? (e.welcome new).id with
      | none => exact .comes hnew
      | some c =>
        have hgiven := hn.given _ (Endpoint.mem_ids_of_connection? hc)
        rw [Endpoint.id_welcome, id_of_newcomer hnew] at hgiven
        exact absurd hgiven (Nat.not_succ_le_self _)

/-- Whoever comes gets a number that was still to be given out. -/
theorem Follows.unborn {h : Happening τ ℓ} {d : Connection τ}
    (hfollows : h.Follows w Q e none (some d)) : e.connections.lastId < d.id := by
  cases hfollows with
  | comes hnew =>
    rw [Endpoint.id_welcome, id_of_newcomer hnew]
    exact Nat.lt_succ_self _

theorem pending_apply (w : Wiring τ σ ℓ η) {h : Happening τ ℓ} (hdeliver : h ≠ .deliver)
    (e : Endpoint τ σ ℓ η) : e.pending <+: (h.apply w e).pending := by
  have hsame {e' : Endpoint τ σ ℓ η} (heq : e'.pending = e.pending) : e.pending <+: e'.pending :=
    ⟨[], by rw [heq, List.append_nil]⟩
  cases h with
  | post event => exact List.prefix_append _ _
  | accept now arrival => exact List.prefix_append _ _
  | deliver => exact absurd rfl hdeliver
  | adopt spec started now =>
    rcases apply_adopt w spec started now e with ⟨-, happly⟩ | ⟨child, limit, -, happly⟩
    · exact hsame (congrArg Endpoint.pending happly)
    · exact hsame ((congrArg Endpoint.pending happly).trans rfl)
  | hear conn now bytes =>
    refine hsame ?_
    show (e.hear w conn now bytes).pending = _
    unfold Endpoint.hear
    split <;> rfl
  | askClose conn => exact hsame (Endpoint.pending_onOne _ _ e)
  | takeOutput conn => exact hsame (Endpoint.pending_onOne _ _ e)
  | setStatus mask bits => exact hsame (Endpoint.pending_setStatus _ _ e)
  | runDevice =>
    refine hsame ?_
    show (e.runDevice w).pending = _
    unfold Endpoint.runDevice
    dsimp only
    split
    · exact Endpoint.pending_setStatus _ _ _
    · rfl
  | broadcastDirty =>
    refine hsame ?_
    show e.broadcastDirty.pending = _
    unfold Endpoint.broadcastDirty
    split <;> rfl
  | _ => exact hsame rfl

/-- **Nothing that was reported is lost** before it is delivered. -/
theorem eventsOf_apply (w : Wiring τ σ ℓ η) {h : Happening τ ℓ} (hdeliver : h ≠ .deliver)
    (hn : e.Numbered) (id : ConnId) : e.eventsOf id <+: (h.apply w e).eventsOf id := by
  have hfollows := follows (w := w) (fun _ _ => Reaction.orders_any _) hn h id
  unfold Endpoint.eventsOf
  generalize e.connection? id = before, (h.apply w e).connection? id = after at hfollows ⊢
  cases hfollows with
  | stays _ htreats => exact (htreats.reports hdeliver).grows
  | goes _ _ hevents =>
    show _ <+: []
    rw [Option.map_some, hevents]
    exact List.prefix_refl _
  | comes _ => exact List.nil_prefix
  | absent => exact List.prefix_refl _

/-! ## What was handed over -/

/-- The events of one connection that are handed to the bus. -/
def hands (id : ConnId) (e : Endpoint τ σ ℓ η) : Happening τ ℓ → List Event
  | deliver => e.eventsOf id
  | _ => []

/-- The events of one connection that were handed to the bus in a run, in their order. -/
def handed (w : Wiring τ σ ℓ η) (id : ConnId) :
    List (Happening τ ℓ) → Endpoint τ σ ℓ η → List Event
  | [], _ => []
  | h :: hs, e => h.hands id e ++ handed w id hs (h.apply w e)

theorem hands_of_ne {h : Happening τ ℓ} (hdeliver : h ≠ .deliver) (id : ConnId) :
    h.hands id e = [] := by
  cases h with
  | deliver => exact absurd rfl hdeliver
  | _ => rfl

/-- The end of every closed connection was handed over or is due. -/
structure Announces (told : ConnId → List Event) (e : Endpoint τ σ ℓ η) : Prop where
  numbered : e.Numbered
  ends : ∀ c ∈ e.connections.items, c.isClosed = true →
    ∃ reason, .connectionClosed c.id c.name reason ∈ told c.id ++ c.events

theorem isClosed_of_newcomer {h : Happening τ ℓ} {c : Connection τ}
    (hc : h.newcomer? e = some c) : c.isClosed = false := by
  rcases newcomer_cases hc with ⟨_, _, _, rfl⟩ | ⟨_, _, _, _, rfl⟩ | ⟨_, _, _, _, rfl⟩ |
    ⟨_, _, _, _, rfl⟩ <;> rfl

/-- **One thing that happens.** -/
theorem Announces.apply {told : ConnId → List Event} (ha : Announces told e)
    (w : Wiring τ σ ℓ η) (h : Happening τ ℓ) :
    Announces (fun id => told id ++ h.hands id e) (h.apply w e) := by
  refine ⟨numbered_apply w ha.numbered h, fun d hd hclosed => ?_⟩
  rcases origin (fun _ _ => Reaction.orders_any _) ha.numbered hd
    with ⟨c, hc, htreats⟩ | ⟨new, hnew, rfl⟩
  · by_cases hdeliver : h = .deliver
    · subst hdeliver
      obtain ⟨hid, hname, hevents, hstate⟩ := Connection.Queues.reports htreats
      have hwas : c.isClosed = true := by
        unfold Connection.isClosed at hclosed ⊢
        rwa [hstate] at hclosed
      obtain ⟨reason, hmem⟩ := ha.ends c hc hwas
      rw [hid, hname]
      refine ⟨reason, List.mem_append_left _ ?_⟩
      show _ ∈ told c.id ++ e.eventsOf c.id
      rwa [ha.numbered.eventsOf_of_mem hc]
    · have hreports := htreats.reports hdeliver
      rw [hands_of_ne hdeliver, List.append_nil]
      cases hwas : c.isClosed with
      | false =>
        obtain ⟨reason, hmem⟩ := hreports.ends hwas hclosed
        exact ⟨reason, List.mem_append_right _ hmem⟩
      | true =>
        obtain ⟨reason, hmem⟩ := ha.ends c hc hwas
        rw [hreports.id, hreports.name]
        refine ⟨reason, ?_⟩
        rcases List.mem_append.1 hmem with hmem | hmem
        · exact List.mem_append_left _ hmem
        · exact List.mem_append_right _ (hreports.grows.subset hmem)
  · have hopen : (e.welcome new).isClosed = new.isClosed := by
      unfold Endpoint.welcome Endpoint.configure
      dsimp only
      split <;> split <;> rfl
    rw [hopen, isClosed_of_newcomer hnew] at hclosed
    cases hclosed

/-- **Every run.** -/
theorem announces_run (w : Wiring τ σ ℓ η) (hs : List (Happening τ ℓ))
    {told : ConnId → List Event} {e : Endpoint τ σ ℓ η} (ha : Announces told e) :
    Announces (fun id => told id ++ handed w id hs e) (run w hs e) := by
  induction hs generalizing told e with
  | nil => simpa [handed] using ha
  | cons h hs ih =>
    have hrest := ih (ha.apply w h)
    simp only [List.append_assoc] at hrest
    exact hrest

end Happening

/-! ## Operations that end with a delivery -/

/-- An operation of an endpoint that delivers what it caused. -/
inductive Call where
  | postEvent (event : Event)
  | receive (conn : ConnId) (now : Instant) (bytes : Bytes)
  | close (conn : ConnId)
  | shutdown
  | idle (now : Instant) (exits : Pid → Option ChildExit)

namespace Call

variable {τ σ ℓ η : Type}

/-- The operation as the endpoint has it. -/
def perform (w : Wiring τ σ ℓ η) :
    Call → Endpoint τ σ ℓ η → Except LinkError (Endpoint τ σ ℓ η)
  | postEvent event, e => .ok (e.postEvent w event)
  | receive conn now bytes, e => e.receive w conn now bytes
  | close conn, e => e.close w conn
  | shutdown, e => .ok (e.shutdown w)
  | idle now exits, e => .ok (e.idle w now exits)

/-- What it does before it delivers. -/
def stirring : Call → List (Happening τ ℓ)
  | postEvent event => [.post event]
  | receive conn now bytes => [.hear conn now bytes]
  | close conn => [.askClose conn]
  | shutdown => [.askCloseAll]
  | idle now exits => [.reap exits, .watch now, .runDevice, .broadcastDirty]

/-- What it does after it delivered. -/
def clearing : Call → List (Happening τ ℓ)
  | idle _ _ => [.drop]
  | _ => []

/-- The connection that it names is one of the endpoint's. -/
def IsKnown (e : Endpoint τ σ ℓ η) : Call → Prop
  | receive conn _ _ => (e.connection? conn).isSome = true
  | close conn => (e.connection? conn).isSome = true
  | _ => True

theorem perform_eq (w : Wiring τ σ ℓ η) {e : Endpoint τ σ ℓ η} {call : Call}
    (hknown : call.IsKnown e) : call.perform w e =
      .ok (Happening.run w call.clearing ((Happening.run w call.stirring e).deliver w).2) := by
  cases call with
  | postEvent event => rfl
  | receive conn now bytes =>
    obtain ⟨c, hc⟩ := Option.isSome_iff_exists.1 hknown
    exact Endpoint.run_receive w e hc now bytes
  | close conn =>
    obtain ⟨c, hc⟩ := Option.isSome_iff_exists.1 hknown
    exact Endpoint.run_close w e hc
  | shutdown => rfl
  | idle now exits => rfl

theorem deliver_not_mem_stirring (call : Call) :
    Happening.deliver ∉ (call.stirring : List (Happening τ ℓ)) := by
  cases call <;> simp [stirring]

end Call

namespace Endpoint

open Happening (run handed)

variable {τ σ ℓ η : Type}

theorem numbered_new (settings : Settings) (device : σ) :
    ({ settings, device } : Endpoint τ σ ℓ η).Numbered :=
  ⟨.nil, fun _ h => by cases h⟩

theorem numbered_run (w : Wiring τ σ ℓ η) (hs : List (Happening τ ℓ)) {e : Endpoint τ σ ℓ η}
    (hn : e.Numbered) : (run w hs e).Numbered := by
  induction hs generalizing e with
  | nil => exact hn
  | cons h hs ih => exact ih (Happening.numbered_apply w hn h)

/-- What is due only grows until it is delivered. -/
theorem due_grows (w : Wiring τ σ ℓ η) {hs : List (Happening τ ℓ)}
    (hdeliver : Happening.deliver ∉ hs) {e : Endpoint τ σ ℓ η} (hn : e.Numbered) :
    e.pending <+: (run w hs e).pending ∧ ∀ id, e.eventsOf id <+: (run w hs e).eventsOf id := by
  induction hs generalizing e with
  | nil => exact ⟨List.prefix_refl _, fun _ => List.prefix_refl _⟩
  | cons h hs ih =>
    obtain ⟨hhead, htail⟩ := not_or.1 (mt List.mem_cons.2 hdeliver)
    obtain ⟨hpending, hevents⟩ := ih htail (Happening.numbered_apply w hn h)
    exact ⟨(Happening.pending_apply w (Ne.symm hhead) e).trans hpending, fun id =>
      (Happening.eventsOf_apply w (Ne.symm hhead) hn id).trans (hevents id)⟩

theorem due_dropSpent {e : Endpoint τ σ ℓ η} (h : e.due = []) : e.dropSpent.due = [] := by
  obtain ⟨hpending, hevents⟩ := (due_eq_nil_iff e).1 h
  exact (due_eq_nil_iff _).2 ⟨hpending, fun c hc => hevents c (List.mem_of_mem_filter hc)⟩

/-- **Delivery is complete, single and finite.** After any run, an operation that delivers comes to
an end. What was due before it, and what it caused, is handed to the bus in one round, or in none
when nothing is due: events of the caller first, then those of the connections in the order of
their numbers. The rounds are over after that, whatever the listeners do, and nothing is due any
more. A connection that is dropped then was closed, and its end was handed over before. -/
theorem delivery_complete (w : Wiring τ σ ℓ η) (settings : Settings) (device : σ)
    (past : List (Happening τ ℓ)) (call : Call)
    (hknown : call.IsKnown (run w past { settings, device })) :
    let start : Endpoint τ σ ℓ η := { settings, device }
    let e := run w past start
    let stirred := run w call.stirring e
    let delivered := (stirred.deliver w).2
    ∃ e', call.perform w e = .ok e' ∧ e' = run w call.clearing delivered ∧ e'.due = [] ∧
      e.pending <+: stirred.pending ∧ (∀ id, e.eventsOf id <+: stirred.eventsOf id) ∧
      stirred.connections.ids.Pairwise (· < ·) ∧
      (∀ rounds d, Rounds w stirred.collect rounds d ↔
        rounds = (if stirred.due = [] then [] else [stirred.due]) ∧ d = delivered) ∧
      ∀ c ∈ delivered.connections.items, e'.connection? c.id = none → c.isClosed = true ∧
        ∃ reason, .connectionClosed c.id c.name reason ∈
          handed w c.id (past ++ call.stirring ++ [.deliver]) start := by
  intro start e stirred delivered
  have hnumbered : e.Numbered := numbered_run w past (numbered_new settings device)
  obtain ⟨hpending, hevents⟩ := due_grows w call.deliver_not_mem_stirring hnumbered
  have hquiet : delivered.due = [] := due_deliver w stirred
  have hdelivered : delivered = run w (past ++ call.stirring ++ [.deliver]) start := by
    simp only [Happening.run_append]
    rfl
  refine ⟨run w call.clearing delivered, Call.perform_eq w hknown, rfl, ?_, hpending, hevents,
    (numbered_run w call.stirring hnumbered).ordered, rounds_iff w stirred, fun c hc hgone => ?_⟩
  · cases call with
    | idle now exits => exact due_dropSpent hquiet
    | _ => exact hquiet
  · -- only the last step drops anything, and it drops connections with nothing to deliver
    have hspent : c.isClosed = true ∧ c.events = [] := by
      cases call with
      | idle now exits => exact (Happening.eq_drop_of_gone w .drop hc hgone).2
      | _ =>
        have hn : delivered.Numbered := by
          rw [hdelivered]
          exact numbered_run w _ (numbered_new settings device)
        rw [show run w (Call.clearing _) delivered = delivered from rfl,
          hn.connection?_of_mem hc] at hgone
        cases hgone
    have hstart : Happening.Announces (fun _ => []) start :=
      ⟨numbered_new settings device, fun c hc => by cases hc⟩
    have hends := (Happening.announces_run w (past ++ call.stirring ++ [.deliver]) hstart).ends
    rw [← hdelivered] at hends
    obtain ⟨reason, hmem⟩ := hends c hc hspent.1
    rw [hspent.2, List.append_nil, List.nil_append] at hmem
    exact ⟨hspent.1, reason, hmem⟩

/-- A client is taken in and closed while a listener hears of it, and it is dropped at the end of
the pass. -/
theorem delivery_complete_of_close :
    let w : Wiring Wire Unit Unit Event :=
      ⟨Wire.transport, Device.passive, fun _ event => .note event (.done ())⟩
    let start : Endpoint Wire Unit Unit Event := { settings := {}, device := () }
    let e := run w [.listen (), .add .client "ui" 0] start
    e.connection? 1 ≠ none ∧
      ∃ e', (Call.close 1).perform w e = .ok e' ∧ e'.due = [] ∧
        e'.outbox.journal = [.connectionClosed 1 "ui" .requested] := by
  intro w start e
  have hknown : (Call.close 1).IsKnown e := rfl
  obtain ⟨e', hperform, hclearing, hdue, -⟩ :=
    delivery_complete w {} () [.listen (), .add .client "ui" 0] (.close 1) hknown
  refine ⟨by decide, e', hperform, hdue, ?_⟩
  rw [hclearing]
  decide +kernel

end Endpoint

end Observatory
