import Observatory.Connection.Wire
import Observatory.Proofs.Connection.Child
import Observatory.Proofs.Endpoint.Rounds
/-!
# The end of connections with a child

What a connection tells is handed to the bus at deliveries, and what was handed over together with
what is still due is its whole history. In every run the end of a child is told once. The end of the
connection is told once more whenever the exit status of the child is collected, or the child is
found to run too long, on a connection that is closed and was not dropped yet.

* `Happening.belated` — how often that happens in a run.
* `Happening.annals_run` — the history of one connection.
* `Endpoint.ends_once_iff` — ends beyond the first.
-/

namespace Observatory

namespace Connection

/-- What was told of a connection is told again after each end that came late. -/
structure Told (late : Nat) (history : List Event) (ended closed : Bool) : Prop where
  child : history.countP Event.isChildEnd = ended.toNat
  ends : history.countP Event.isEnd = closed.toNat + late
  last : late = 0 → EndsLast history
  going : closed = false → late = 0

variable {τ : Type}

theorem Told.nil : Told 0 [] false false := ⟨rfl, rfl, fun _ => .nil, fun _ => rfl⟩

theorem Told.continue {n late : Nat} {history news : List Event} {c d : Connection τ}
    (h : Told n history c.childOver c.isClosed) (hd : Continues late c news d) :
    Told (n + late) (history ++ news) d.childOver d.isClosed where
  child := by
    have hchild := hd.child
    rw [List.countP_append, h.child]
    omega
  ends := by
    have hends := hd.ends
    rw [List.countP_append, h.ends]
    omega
  last := fun hnone => by
    obtain ⟨hn, hlate⟩ := Nat.add_eq_zero_iff.1 hnone
    cases hclosed : c.isClosed with
    | true =>
      rw [hd.silent hclosed hlate, List.append_nil]
      exact h.last hn
    | false =>
      have hends := h.ends
      rw [hclosed, hn] at hends
      refine .append (fun x hx => ?_) (hd.last hclosed).2
      simpa using List.countP_eq_zero.1 hends x hx
  going := fun hopen => by
    have hclosed : c.isClosed = false := by
      rw [← Bool.not_eq_true]
      intro hclosed
      rw [hd.stays hclosed] at hopen
      cases hopen
    rw [h.going hclosed, (hd.last hclosed).1]

/-- Listeners tell nothing. -/
theorem Queues.continues {Q : Command → Prop} {c d : Connection τ} (h : Queues Q c d)
    (hc : Linked c) : Continues 0 c [] d := by
  induction h with
  | refl => exact .of_same rfl hc rfl rfl rfl
  | tail _ hlast ih =>
    obtain ⟨command, -, rfl⟩ := hlast
    exact ih.trans (continues_queueCommand false command ih.linked)

end Connection

open Connection (Continues Linked)

namespace Endpoint

variable {τ σ ℓ η : Type}

theorem continues_announceTo (old new : DeviceStatus) {c : Connection τ} (hc : Linked c) :
    Continues 0 c [] (announceTo old new c) := by
  unfold announceTo
  split
  · exact .of_same rfl hc rfl rfl rfl
  · split
    · exact .of_same rfl { hc with } rfl rfl rfl
    · exact .of_same rfl hc rfl rfl rfl

theorem childOver_emptied (c : Connection τ) : (emptied c).childOver = c.childOver := by
  unfold Connection.childOver emptied
  dsimp only
  cases c.helper <;> rfl

theorem continues_emptied {c : Connection τ} (hc : Linked c) : Continues 0 c [] (emptied c) :=
  .of_same rfl { hc with } rfl rfl (childOver_emptied c)

theorem continues_readOne (w : Wiring τ σ ℓ η) (p : Pass τ) {t : Turn τ σ} (hc : Linked t.conn) :
    ∃ news, Continues 0 t.conn news (readOne w p t).2.conn := by
  unfold readOne
  dsimp only
  obtain ⟨ms, hms⟩ := (Connection.proceeds_pollConnect (p.connects t.conn.id) p.now hc).continues hc
    (Connection.spares_pollConnect _ _ _)
  obtain ⟨ns, hns⟩ := (Connection.proceeds_readPass w.transport w.device p.now
    { t with conn := (t.conn.pollConnect (p.connects t.conn.id) p.now).2 }).continues hms.linked
    (Connection.converses_readPass (Q := fun _ => True) _ _ _ _).spares
  exact ⟨_, (hms.trans hns).trans (Connection.continues_errorPass w.transport hns.linked)⟩

theorem continues_writeOne (w : Wiring τ σ ℓ η) {c : Connection τ} (hc : Linked c) :
    ∃ news, Continues 0 c news (writeOne w c).2 := by
  unfold writeOne
  split
  · exact (Connection.proceeds_writePass w.transport hc).continues hc
      (Connection.spares_writePass _ _)
  · exact ⟨[], .of_same rfl hc rfl rfl rfl⟩

theorem continues_sendValues (values : List Value) {c : Connection τ} (hc : Linked c) :
    ∃ news, Continues 0 c news (values.foldl (fun c v => c.sendValue v) c) :=
  (Connection.serves_sendValues values c).proceeds.continues hc
    (Connection.converses_sendValues (Q := fun _ => True) values c).spares

theorem linked_helperOf (spec : HelperSpec) (child : StartedHelper τ) (deadline : Option Instant)
    (now : Instant) (id : ConnId) : Linked (helperOf spec child deadline now id) := by
  have hlinked : Linked (Connection.overStream id .helper spec.name child.stream now) :=
    (Connection.isNew_overStream _ _ _ _ _).linked
  exact { hlinked with }

/-- The exit status of a child is collected where there is one. -/
theorem continues_reapOne (exits : Pid → Option ChildExit) {c : Connection τ} (hc : Linked c) :
    ∃ news, Continues (c.isClosed && c.isReapable exits).toNat c news (reapOne exits c) := by
  rcases reapOne_cases exits c with ⟨h, exit, hchild, hreapable, hreap⟩ | ⟨hreapable, hreap⟩
  · rw [hreap, hreapable, Bool.and_true]
    exact Connection.continues_childReturned hchild exit hc
  · rw [hreap, hreapable, Bool.and_false]
    exact ⟨[], .of_same rfl hc rfl rfl rfl⟩

end Endpoint

namespace Happening

variable {τ σ ℓ η : Type} {w : Wiring τ σ ℓ η} {Q : Command → Prop} {e : Endpoint τ σ ℓ η}

/-! ## One thing that happens -/

/-- The end of a connection that is closed already is told once more: the exit status of its child
is collected, or its child is found to run too long. -/
def isBelated : Happening τ ℓ → Connection τ → Bool
  | reap exits, c => c.isClosed && c.isReapable exits
  | watch now, c => c.isClosed && c.isOverdue now
  | _, _ => false

/-- **What becomes of one connection**, unless its events are taken. -/
theorem Treats.continues {h : Happening τ ℓ} (hdeliver : h ≠ .deliver) {c d : Connection τ}
    (htreats : h.Treats w Q e c d) (hc : Linked c) :
    ∃ news, Continues (h.isBelated c).toNat c news d := by
  have hsame : ∃ news, Continues 0 c news c := ⟨[], .of_same rfl hc rfl rfl rfl⟩
  have hclose : ∃ news, Continues 0 c news (c.close .requested) :=
    (Connection.proceeds_close _ c).continues hc
      (Connection.converses_close (Q := fun _ => True) _ c).spares
  cases h with
  | queue conn command =>
    subst htreats
    split
    · exact ⟨[], Connection.continues_queueCommand false command hc⟩
    · exact hsame
  | queueTo peer command =>
    rcases htreats with rfl | rfl
    · exact hsame
    · exact ⟨[], Connection.continues_queueCommand false command hc⟩
  | hear conn now bytes =>
    subst htreats
    split
    · exact (Connection.proceeds_receive w.device now bytes ⟨c, ⟨e.values, e.device⟩⟩).continues hc
        (Connection.converses_receive (Q := fun _ => True) _ _ _ _).spares
    · exact hsame
  | askClose conn =>
    subst htreats
    split
    · exact hclose
    · exact hsame
  | askCloseAll => subst htreats; exact hclose
  | setStatus mask bits => subst htreats; exact ⟨[], Endpoint.continues_announceTo _ _ hc⟩
  | infoAll =>
    subst htreats
    split
    · exact Endpoint.continues_sendValues _ hc
    · exact hsame
  | message _ _ _ _ =>
    subst htreats
    split
    · exact ⟨[], .of_same rfl { hc with } rfl rfl rfl⟩
    · exact hsame
  | read p =>
    obtain ⟨own, rfl⟩ := htreats
    exact Endpoint.continues_readOne w p (t := ⟨c, own⟩) hc
  | write => subst htreats; exact Endpoint.continues_writeOne w hc
  | deliver => exact absurd rfl hdeliver
  | drop => rw [htreats.1]; exact hsame
  | reap exits =>
    subst htreats
    obtain ⟨news, hnews⟩ := Endpoint.continues_reapOne exits hc
    have hemptied := Endpoint.continues_emptied hnews.linked
    exact ⟨news, hnews.keep hemptied⟩
  | watch now => subst htreats; exact Connection.continues_idle now hc
  | runDevice => subst htreats; exact ⟨[], Endpoint.continues_announceTo _ _ hc⟩
  | broadcastDirty =>
    subst htreats
    split
    · unfold Connection.broadcastDirty
      split
      · exact Endpoint.continues_sendValues _ hc
      · exact hsame
    · exact hsame
  | takeOutbox => subst htreats; exact ⟨[], Endpoint.continues_emptied hc⟩
  | takeOutput conn =>
    subst htreats
    split
    · exact ⟨[], .of_same rfl { hc with } rfl rfl rfl⟩
    · exact hsame
  | _ => subst htreats; exact hsame

/-- A delivery takes the events of a connection and leaves the rest as it was. -/
theorem Treats.delivered {c d : Connection τ} (htreats : (deliver : Happening τ ℓ).Treats w Q e c d)
    (hc : Linked c) : Linked d ∧ d.events = [] ∧ d.childOver = c.childOver ∧
      d.isClosed = c.isClosed := by
  have hemptied : Linked { Endpoint.emptied c with events := [] } := { hc with }
  have hdealt := Connection.Queues.continues htreats hemptied
  obtain ⟨hover, hclosed⟩ := hdealt.quiet
  exact ⟨hdealt.linked, hdealt.events, hover.trans (Endpoint.childOver_emptied c), hclosed⟩

theorem linked_of_newcomer {h : Happening τ ℓ} {c : Connection τ} (hc : h.newcomer? e = some c) :
    Linked (e.welcome c) ∧ (e.welcome c).events = [] ∧ (e.welcome c).childOver = false ∧
      (e.welcome c).isClosed = false := by
  have hwelcome {c : Connection τ} (hlinked : Linked c) (hevents : c.events = [])
      (hover : c.childOver = false) (hopen : c.isClosed = false) : Linked (e.welcome c) ∧
        (e.welcome c).events = [] ∧ (e.welcome c).childOver = false ∧
          (e.welcome c).isClosed = false := by
    unfold Endpoint.welcome Endpoint.configure
    dsimp only
    split <;> split <;> exact ⟨{ hlinked with }, hevents, hover, hopen⟩
  rcases newcomer_cases hc with ⟨_, _, _, rfl⟩ | ⟨_, _, _, _, rfl⟩ | ⟨_, _, _, _, rfl⟩ |
    ⟨_, _, _, _, rfl⟩
  · exact hwelcome (Connection.isNew_inMemory _ _ _ _).linked rfl rfl rfl
  · exact hwelcome (Connection.isNew_connecting _ _ _ _ _).linked rfl rfl rfl
  · exact hwelcome (Connection.isNew_overStream _ _ _ _ _).linked rfl rfl rfl
  · exact hwelcome (Endpoint.linked_helperOf _ _ _ _ _) rfl rfl rfl

/-- Whatever happens, the links fit the states. -/
theorem linked_apply (w : Wiring τ σ ℓ η) (hn : e.Numbered)
    (hlinked : ∀ c ∈ e.connections.items, Linked c) (h : Happening τ ℓ) :
    ∀ d ∈ (h.apply w e).connections.items, Linked d := by
  intro d hd
  rcases origin (fun _ _ => Reaction.orders_any _) hn hd
    with ⟨c, hc, htreats⟩ | ⟨new, hnew, rfl⟩
  · by_cases hdeliver : h = .deliver
    · subst hdeliver
      exact (htreats.delivered (hlinked c hc)).1
    · obtain ⟨news, hnews⟩ := htreats.continues hdeliver (hlinked c hc)
      exact hnews.linked
  · exact (linked_of_newcomer hnew).1

theorem lastId_apply (w : Wiring τ σ ℓ η) (h : Happening τ ℓ) (e : Endpoint τ σ ℓ η) :
    e.connections.lastId ≤ (h.apply w e).connections.lastId := by
  cases hnew : h.newcomer? e with
  | some new =>
    rw [connections_of_newcomer w hnew]
    exact Nat.le_succ _
  | none =>
    by_cases hdrop : h = .drop
    · subst hdrop
      exact Nat.le_refl _
    · by_cases hnumber : h = .number
      · subst hnumber
        exact Nat.le_succ _
      · exact Nat.le_of_eq (numbers_apply w hnew hdrop hnumber).2.symm

/-! ## The history of one connection -/

/-- Whether an end of the connection of a number comes late. -/
def belates (id : ConnId) (e : Endpoint τ σ ℓ η) (h : Happening τ ℓ) : Bool :=
  (e.connection? id).any h.isBelated

/-- How many ends of the connection of a number come late in a run. -/
def belated (w : Wiring τ σ ℓ η) (id : ConnId) :
    List (Happening τ ℓ) → Endpoint τ σ ℓ η → Nat
  | [], _ => 0
  | h :: hs, e => (h.belates id e).toNat + belated w id hs (h.apply w e)

/-- What is known at any time of the connection of a number, from what was handed over of it. -/
structure Annals (id : ConnId) (late : Nat) (told : List Event) (e : Endpoint τ σ ℓ η) :
    Prop where
  numbered : e.Numbered
  linked : ∀ c ∈ e.connections.items, Linked c
  history : ∃ ended closed, Connection.Told late (told ++ e.eventsOf id) ended closed ∧
    ∀ c, e.connection? id = some c → c.childOver = ended ∧ c.isClosed = closed
  unborn : e.connections.lastId < id → told = [] ∧ late = 0

/-- **One thing that happens.** -/
theorem Annals.apply {id : ConnId} {late : Nat} {told : List Event} (ha : Annals id late told e)
    (w : Wiring τ σ ℓ η) (h : Happening τ ℓ) :
    Annals id (late + (h.belates id e).toNat) (told ++ h.hands id e) (h.apply w e) := by
  have hfollows := follows (w := w) (fun _ _ => Reaction.orders_any _) ha.numbered h id
  obtain ⟨ended, closed, htold, hstate⟩ := ha.history
  refine ⟨numbered_apply w ha.numbered h, linked_apply w ha.numbered ha.linked h, ?_,
    fun hunborn => ?_⟩
  · cases hc : e.connection? id with
    | none =>
      -- the number is not in use: nothing was due, and whoever gets it now is new
      have hnothing : e.eventsOf id = [] := by rw [Endpoint.eventsOf, hc]; rfl
      have hhands : h.hands id e = [] := by cases h <;> first | rfl | exact hnothing
      have hnone : h.belates id e = false := by rw [belates, hc]; rfl
      rw [hnothing, List.append_nil] at htold
      rw [hhands, hnone, List.append_nil, Bool.toNat_false, Nat.add_zero]
      cases hd : (h.apply w e).connection? id with
      | none =>
        rw [Endpoint.eventsOf, hd]
        exact ⟨ended, closed, by simpa using htold, fun d hd' => by cases hd'⟩
      | some d =>
        have hid : d.id = id := Connections.id_of_get? hd
        rw [hc, hd] at hfollows
        obtain ⟨rfl, rfl⟩ := ha.unborn (hid ▸ hfollows.unborn)
        cases hfollows with
        | comes hnew =>
          obtain ⟨-, hevents, hover, hopen⟩ := linked_of_newcomer hnew
          rw [Endpoint.eventsOf, hd]
          refine ⟨false, false, ?_, fun d hd' => ?_⟩
          · simpa [hevents] using Connection.Told.nil
          · cases hd'
            exact ⟨hover, hopen⟩
    | some c =>
      obtain ⟨rfl, rfl⟩ := hstate c hc
      have hdue : e.eventsOf id = c.events := by rw [Endpoint.eventsOf, hc]; rfl
      have hbelates : h.belates id e = h.isBelated c := by rw [belates, hc]; rfl
      rw [hdue] at htold
      rw [hbelates]
      cases hd : (h.apply w e).connection? id with
      | none =>
        rw [hc, hd] at hfollows
        cases hfollows with
        | goes hdrop _ hevents =>
          subst hdrop
          rw [hevents] at htold
          rw [Endpoint.eventsOf, hd]
          exact ⟨_, _, by simpa [hands, isBelated] using htold, fun d hd' => by cases hd'⟩
      | some d =>
        have hdue' : (h.apply w e).eventsOf id = d.events := by rw [Endpoint.eventsOf, hd]; rfl
        rw [hc, hd] at hfollows
        rw [hdue']
        refine ⟨d.childOver, d.isClosed, ?_, fun b hb => by cases hb; exact ⟨rfl, rfl⟩⟩
        cases hfollows with
        | stays hmem htreats =>
          have hlinked := ha.linked c hmem
          by_cases hdeliver : h = .deliver
          · subst hdeliver
            obtain ⟨-, hevents, hover, hclosed⟩ := htreats.delivered hlinked
            rw [hevents, hover, hclosed, List.append_nil]
            show Connection.Told late (told ++ e.eventsOf id) _ _
            rwa [hdue]
          · obtain ⟨news, hnews⟩ := htreats.continues hdeliver hlinked
            rw [hands_of_ne hdeliver, List.append_nil, hnews.events, ← List.append_assoc]
            exact htold.continue hnews
  · have hlast := Nat.lt_of_le_of_lt (lastId_apply w h e) hunborn
    obtain ⟨rfl, rfl⟩ := ha.unborn hlast
    have hc : e.connection? id = none := ha.numbered.connection?_of_unborn hlast
    have hnothing : e.eventsOf id = [] := by rw [Endpoint.eventsOf, hc]; rfl
    have hhands : h.hands id e = [] := by cases h <;> first | rfl | exact hnothing
    have hnone : h.belates id e = false := by rw [belates, hc]; rfl
    rw [hhands, hnone]
    exact ⟨rfl, rfl⟩

/-- **Every run.** -/
theorem annals_run (w : Wiring τ σ ℓ η) {id : ConnId} (hs : List (Happening τ ℓ)) {late : Nat}
    {told : List Event} {e : Endpoint τ σ ℓ η} (ha : Annals id late told e) :
    Annals id (late + belated w id hs e) (told ++ handed w id hs e) (run w hs e) := by
  induction hs generalizing late told e with
  | nil => simpa [belated, handed] using ha
  | cons h hs ih =>
    have hrest := ih (ha.apply w h)
    rwa [Nat.add_assoc, List.append_assoc] at hrest

end Happening

namespace Endpoint

open Happening (run handed belated)

variable {τ σ ℓ η : Type}

/-- **The end of a child is told once, and the end of a connection once and once more for each time
that it comes late.** The history of a connection is what was handed to the bus in a run and what
is due after it. Nothing is told behind the end, and the end is told only once, exactly in the runs
in which no exit status is collected and no child is found to run too long on that connection while
it is closed and not dropped yet. The runs are those of the operations, too: `run_poll`, `run_tick`,
`run_postEvent` and `run_shutdown` say which things happen in them. -/
theorem ends_once_iff (w : Wiring τ σ ℓ η) (settings : Settings) (device : σ)
    (past : List (Happening τ ℓ)) (id : ConnId) :
    let start : Endpoint τ σ ℓ η := { settings, device }
    let history := handed w id past start ++ (run w past start).eventsOf id
    let late := belated w id past start
    history.countP Event.isChildEnd ≤ 1 ∧ history.countP Event.isEnd - 1 = late ∧
      (EndsLast history ↔ late = 0) := by
  intro start history late
  have hstart : Happening.Annals id 0 [] start := by
    refine ⟨numbered_new settings device, fun c hc => ?_, ⟨false, false, .nil, fun c hc => ?_⟩,
      fun _ => ⟨rfl, rfl⟩⟩
    · cases hc
    · cases hc
  obtain ⟨ended, closed, htold, -⟩ := (Happening.annals_run w past hstart).history
  rw [Nat.zero_add, List.nil_append] at htold
  have hends : history.countP Event.isEnd = closed.toNat + late := htold.ends
  refine ⟨htold.child ▸ Bool.toNat_le ended, ?_, fun hlast => ?_, htold.last⟩
  · cases closed with
    | true => rw [hends, Bool.toNat_true, Nat.add_sub_cancel_left]
    | false =>
      have hnone : late = 0 := htold.going rfl
      rw [hends, hnone]
      rfl
  · have honce := hlast.countP_le
    cases closed with
    | true =>
      rw [Bool.toNat_true] at hends
      omega
    | false => exact htold.going rfl

/-- A child is closed and ends by itself before the next pass. A listener hears of the end of its
connection, then of the end of the child, and of the end of the connection once more. -/
theorem ends_twice_of_close :
    let w : Wiring Wire Unit Unit Event :=
      ⟨Wire.transport, Device.passive, fun _ event => .note event (.done ())⟩
    let child : StartedHelper Wire := ⟨7, {}, {}⟩
    let e : Endpoint Wire Unit Unit Event := run w
      [.listen (), .adopt { name := "dome", path := "/bin/sh" } (.ok child) 0]
      { settings := {}, device := () }
    ∃ e', e.close w 1 = .ok e' ∧
      let heard := (e'.idle w 1 fun _ => some (.exited 0)).outbox.journal
      heard = [.connectionClosed 1 "dome" .requested, .childEnded 1 7 (.exited 0),
        .connectionClosed 1 "dome" .childEnded] ∧
      heard.countP Event.isEnd = 2 ∧ ¬ EndsLast heard := by
  intro w child e
  obtain ⟨c, hc⟩ : ∃ c, e.connection? 1 = some c := Option.isSome_iff_exists.1 (by decide)
  refine ⟨run w [.askClose 1, .deliver] e, run_close w e hc, ?_⟩
  intro heard
  have hheard : heard = [.connectionClosed 1 "dome" .requested, .childEnded 1 7 (.exited 0),
      .connectionClosed 1 "dome" .childEnded] := by
    decide +kernel
  rw [hheard]
  exact ⟨rfl, by decide, by decide⟩

end Endpoint

end Observatory
