import Observatory.Connection.Wire
import Observatory.Proofs.Connection.Observer
import Observatory.Proofs.Endpoint.Children
/-!
# The observers of children

The observer of a child is told of its end when the end is noted at the connection of the child. A
connection that was closed can be dropped before that, while the child is still running. Then the
child is waited for without its connection, and nobody is left who could tell the observer.

* `Happening.taken` — the reports that were taken in a run.
* `Custody`, `Happening.custody` — what became of a child in a run.
* `Custody.Fits.once`, `Happening.attends_run` — one child and its observer.
* `Endpoint.told_once_iff` — when the observer was told, once the exit status was collected.
* `Endpoint.untold_of_close` — a child that is closed and ends later.
-/

namespace Observatory

open Connection (Tends Observed)

namespace Endpoint

variable {τ σ ℓ η : Type}

/-! ## What becomes of one child -/

/-- What waits is gathered, whatever becomes of the events. -/
theorem tends_emptied (events : List Event) (c : Connection τ) :
    Tends false c.untold c { emptied c with events } := by
  have hnone : ({ emptied c with events } : Connection τ).tidings = [] := by
    unfold Connection.tidings emptied
    cases c.helper <;> rfl
  have huntold : ({ emptied c with events } : Connection τ).untold = 0 := by
    unfold Connection.untold
    rw [hnone]
    rfl
  have hreaped : ({ emptied c with events } : Connection τ).isReaped = c.isReaped := by
    unfold Connection.isReaped emptied
    cases c.helper <;> rfl
  have hover : ({ emptied c with events } : Connection τ).childOver = c.childOver :=
    childOver_emptied c
  refine ⟨rfl, by rw [hreaped, Bool.or_false], by rw [huntold, hover, Nat.zero_add], fun hc => ?_⟩
  refine ⟨by simp [hnone], fun hwaits => absurd huntold hwaits, ?_⟩
  rw [hreaped, hover]
  exact hc.ended

theorem tends_reapOne (exits : Pid → Option ChildExit) (c : Connection τ) :
    Tends (c.isReapable exits) 0 c (reapOne exits c) := by
  rcases reapOne_cases exits c with ⟨h, exit, hchild, hreapable, hreap⟩ | ⟨hreapable, hreap⟩
  · rw [hreap, hreapable]
    exact Connection.tends_childReturned hchild exit
  · rw [hreap, hreapable]
    exact .refl c

theorem tends_readOne (w : Wiring τ σ ℓ η) (p : Pass τ) (t : Turn τ σ) :
    Tends false 0 t.conn (readOne w p t).2.conn := by
  unfold readOne
  dsimp only
  have hconnect : Tends false 0 t.conn (t.conn.pollConnect (p.connects t.conn.id) p.now).2 :=
    .of_helper (Connection.id_pollConnect _ _ _) (Connection.helper_pollConnect _ _ _)
      (Connection.reports_pollConnect _ _ _).grows
  have hpass := Connection.converses_readPass (Q := fun _ => True) w.transport w.device p.now
    { t with conn := (t.conn.pollConnect (p.connects t.conn.id) p.now).2 }
  have hread := Tends.of_helper hpass.id hpass.helper
    (Connection.proceeds_readPass w.transport w.device p.now _).reports.grows
  exact (hconnect.trans hread).trans (Connection.tends_errorPass w.transport _)

theorem helper_writeOne (w : Wiring τ σ ℓ η) (c : Connection τ) :
    (writeOne w c).2.helper = c.helper := by
  unfold writeOne
  split
  · exact Connection.helper_writePass w.transport c
  · rfl

theorem helper_announceTo (old new : DeviceStatus) (c : Connection τ) :
    (announceTo old new c).helper = c.helper := by
  unfold announceTo
  split
  · rfl
  · split <;> rfl

end Endpoint

namespace Happening

variable {τ σ ℓ η : Type} {w : Wiring τ σ ℓ η} {Q : Command → Prop} {e : Endpoint τ σ ℓ η}

/-- How many reports of the end of its child are gathered from a connection. -/
def gathers : Happening τ ℓ → Connection τ → Nat
  | deliver, c => c.untold
  | reap exits, c => (Endpoint.reapOne exits c).untold
  | takeOutbox, c => c.untold
  | _, _ => 0

/-- The exit status of the child is collected at its connection. -/
def reaps : Happening τ ℓ → Connection τ → Bool
  | reap exits, c => c.isReapable exits
  | _, _ => false

/-- **What becomes of the child behind one connection.** -/
theorem Treats.tends {h : Happening τ ℓ} {c d : Connection τ} (htreats : h.Treats w Q e c d) :
    Tends (h.reaps c) (h.gathers c) c d := by
  have halone (hdeliver : h ≠ .deliver) (hhelper : d.helper = c.helper) : Tends false 0 c d :=
    .of_helper htreats.id hhelper (htreats.reports hdeliver).grows
  have hcommand (command : Command) : (c.queueCommand false command).2.helper = c.helper :=
    (Connection.converses_queueCommand (Q := fun _ => True) trivial false c).helper
  have hclose : (c.close .requested).helper = c.helper :=
    (Connection.converses_close (Q := fun _ => True) _ c).helper
  cases h with
  | queue conn command =>
    refine halone nofun ?_
    subst htreats
    split
    · exact hcommand command
    · rfl
  | queueTo peer command =>
    refine halone nofun ?_
    rcases htreats with rfl | rfl
    · rfl
    · exact hcommand command
  | hear conn now bytes =>
    refine halone nofun ?_
    subst htreats
    split
    · exact (Connection.converses_receive (Q := fun _ => True) _ _ _ _).helper
    · rfl
  | askClose conn =>
    refine halone nofun ?_
    subst htreats
    split
    · exact hclose
    · rfl
  | askCloseAll => subst htreats; exact halone nofun hclose
  | setStatus mask bits => subst htreats; exact halone nofun (Endpoint.helper_announceTo _ _ c)
  | infoAll =>
    refine halone nofun ?_
    subst htreats
    split
    · exact (Connection.converses_sendValues (Q := fun _ => True) _ c).helper
    · rfl
  | message _ _ _ _ =>
    refine halone nofun ?_
    subst htreats
    split <;> rfl
  | read p =>
    obtain ⟨own, rfl⟩ := htreats
    exact Endpoint.tends_readOne w p ⟨c, own⟩
  | write => subst htreats; exact halone nofun (Endpoint.helper_writeOne w c)
  | deliver =>
    have hdealt := Connection.Queues.converses htreats
    have hevents := (Connection.Queues.reports htreats).2.2.1
    have hqueues : Tends false 0 { Endpoint.emptied c with events := [] } d :=
      .of_helper hdealt.id hdealt.helper ⟨[], by rw [hevents, List.append_nil]⟩
    exact (Endpoint.tends_emptied [] c).trans hqueues
  | drop => rw [htreats.1]; exact .refl c
  | reap exits =>
    subst htreats
    have hgathered := (Endpoint.tends_reapOne exits c).trans
      (Endpoint.tends_emptied (Endpoint.reapOne exits c).events (Endpoint.reapOne exits c))
    rwa [Bool.or_false, Nat.zero_add] at hgathered
  | watch now => subst htreats; exact Connection.tends_idle now c
  | runDevice => subst htreats; exact halone nofun (Endpoint.helper_announceTo _ _ c)
  | broadcastDirty =>
    refine halone nofun ?_
    subst htreats
    split
    · exact (Connection.converses_broadcastDirty (Q := fun _ => True) _ c).helper
    · rfl
  | takeOutbox => subst htreats; exact Endpoint.tends_emptied c.events c
  | takeOutput conn =>
    refine halone nofun ?_
    subst htreats
    split <;> rfl
  | _ => subst htreats; exact .refl _

theorem observed_of_newcomer {h : Happening τ ℓ} {c : Connection τ} (hc : h.newcomer? e = some c) :
    (e.welcome c).Observed ∧ (e.welcome c).untold = 0 ∧ (e.welcome c).isReaped = false := by
  have hquiet : c.tidings = [] ∧ c.isReaped = false := by
    rcases newcomer_cases hc with ⟨_, _, _, rfl⟩ | ⟨_, _, _, _, rfl⟩ | ⟨_, _, _, _, rfl⟩ |
      ⟨_, _, _, _, rfl⟩ <;> exact ⟨rfl, rfl⟩
  have hhelper : (e.welcome c).helper = c.helper := by
    unfold Endpoint.welcome Endpoint.configure
    dsimp only
    split <;> split <;> rfl
  have htidings : (e.welcome c).tidings = [] := by
    unfold Connection.tidings at hquiet ⊢
    rw [hhelper, hquiet.1]
  have hreaped : (e.welcome c).isReaped = false := by
    unfold Connection.isReaped at hquiet ⊢
    rw [hhelper, hquiet.2]
  have huntold : (e.welcome c).untold = 0 := by
    unfold Connection.untold
    rw [htidings]
    rfl
  refine ⟨⟨by simp [htidings], fun hwaits => absurd huntold hwaits, fun hcollected => ?_⟩, huntold,
    hreaped⟩
  rw [hreaped] at hcollected
  cases hcollected

/-! ## What is gathered -/

/-- The reports that are taken from the outbox. -/
def takes (e : Endpoint τ σ ℓ η) : Happening τ ℓ → List HelperReport
  | takeOutbox => e.takeOutbox.1.reports
  | _ => []

/-- The reports that were taken from the outbox in a run, in their order. -/
def taken (w : Wiring τ σ ℓ η) : List (Happening τ ℓ) → Endpoint τ σ ℓ η → List HelperReport
  | [], _ => []
  | h :: hs, e => h.takes e ++ taken w hs (h.apply w e)

/-- What gathers reports, takes them or drops connections. -/
def clears : Happening τ ℓ → Bool
  | deliver => true
  | drop => true
  | reap _ => true
  | takeOutbox => true
  | _ => false

/-- Nothing else touches the outbox, or the children that are waited for without a connection. -/
theorem outbox_apply (w : Wiring τ σ ℓ η) {h : Happening τ ℓ} (hkeeps : h.clears = false)
    (e : Endpoint τ σ ℓ η) :
    (h.apply w e).outbox = e.outbox ∧ (h.apply w e).orphans = e.orphans := by
  have hone (id : ConnId) (f : Connection τ → Connection τ) :
      (e.onOne id f).outbox = e.outbox ∧ (e.onOne id f).orphans = e.orphans := by
    unfold Endpoint.onOne
    split <;> exact ⟨rfl, rfl⟩
  have hstatus (mask bits : UInt32) (e : Endpoint τ σ ℓ η) :
      (e.setStatus mask bits).outbox = e.outbox ∧ (e.setStatus mask bits).orphans = e.orphans := by
    unfold Endpoint.setStatus
    dsimp only
    split <;> exact ⟨rfl, rfl⟩
  cases h with
  | deliver => cases hkeeps
  | drop => cases hkeeps
  | reap exits => cases hkeeps
  | takeOutbox => cases hkeeps
  | adopt spec started now =>
    rcases apply_adopt w spec started now e with ⟨-, happly⟩ | ⟨child, limit, -, happly⟩
    · rw [happly]
      exact ⟨rfl, rfl⟩
    · rw [happly]
      exact ⟨rfl, rfl⟩
  | hear conn now bytes =>
    show (e.hear w conn now bytes).outbox = _ ∧ (e.hear w conn now bytes).orphans = _
    unfold Endpoint.hear
    split <;> exact ⟨rfl, rfl⟩
  | askClose conn => exact hone conn _
  | takeOutput conn => exact hone conn _
  | setStatus mask bits => exact hstatus mask bits e
  | runDevice =>
    show (e.runDevice w).outbox = _ ∧ (e.runDevice w).orphans = _
    unfold Endpoint.runDevice
    dsimp only
    split
    · exact hstatus _ _ _
    · exact ⟨rfl, rfl⟩
  | broadcastDirty =>
    show e.broadcastDirty.outbox = _ ∧ e.broadcastDirty.orphans = _
    unfold Endpoint.broadcastDirty
    split <;> exact ⟨rfl, rfl⟩
  | _ => exact ⟨rfl, rfl⟩

end Happening

namespace Endpoint

variable {τ σ ℓ η : Type}

/-- Where the numbers are all different, the ends of one child wait at one connection. -/
theorem countP_tidings {items : List (Connection τ)} (hdistinct : (items.map (·.id)).Nodup)
    (hobserved : ∀ c ∈ items, c.Observed) (id : ConnId) :
    (items.flatMap (·.tidings)).countP (HelperReport.isEndOf id) =
      ((items.find? fun c => c.id == id).map (·.untold)).getD 0 := by
  induction items with
  | nil => rfl
  | cons c rest ih =>
    rw [List.map_cons, List.nodup_cons] at hdistinct
    have hrest := ih hdistinct.2 fun d hd => hobserved d (List.mem_cons_of_mem _ hd)
    rw [List.flatMap_cons, List.countP_append, hrest]
    by_cases hid : c.id = id
    · have hnone : rest.find? (fun d => d.id == id) = none := by
        refine List.find?_eq_none.2 fun d hd hsame => hdistinct.1 ?_
        rw [hid, ← beq_iff_eq.1 hsame]
        exact List.mem_map_of_mem hd
      rw [hnone, List.find?_cons_of_pos (by simpa using hid), ← hid]
      rfl
    · have hother : c.tidings.countP (HelperReport.isEndOf id) = 0 :=
        List.countP_eq_zero.2 fun r hr hend =>
          hid ((hobserved c List.mem_cons_self).own r hr id hend).symm
      rw [hother, List.find?_cons_of_neg (by simpa using hid), Nat.zero_add]

theorem reports_collect (e : Endpoint τ σ ℓ η) :
    e.collect.outbox.reports = e.outbox.reports ++ e.connections.items.flatMap (·.tidings) := by
  refine congrArg (e.outbox.reports ++ ·) ?_
  induction e.connections.items with
  | nil => rfl
  | cons c rest ih =>
    rw [List.flatMap_cons, ← ih]
    unfold Connection.tidings
    cases hchild : c.helper with
    | none => rw [List.filterMap_cons_none hchild]; rfl
    | some h => rw [List.filterMap_cons_some hchild]; rfl

/-- What a collection adds to the outbox of the end of one child. -/
theorem countP_collect {e : Endpoint τ σ ℓ η} (hn : e.Numbered)
    (hobserved : ∀ c ∈ e.connections.items, c.Observed) (id : ConnId) :
    e.collect.outbox.reports.countP (HelperReport.isEndOf id) =
      e.outbox.reports.countP (HelperReport.isEndOf id) +
        ((e.connection? id).map (·.untold)).getD 0 := by
  rw [reports_collect, List.countP_append, countP_tidings hn.distinct hobserved]
  rfl

end Endpoint

namespace Happening

variable {τ σ ℓ η : Type} {w : Wiring τ σ ℓ η} {e : Endpoint τ σ ℓ η}

/-- **Nothing is gathered twice, and nothing is lost on the way.** -/
theorem countP_apply (hn : e.Numbered) (hobserved : ∀ c ∈ e.connections.items, c.Observed)
    (h : Happening τ ℓ) (id : ConnId) :
    (h.takes e ++ (h.apply w e).outbox.reports).countP (HelperReport.isEndOf id) =
      e.outbox.reports.countP (HelperReport.isEndOf id) +
        ((e.connection? id).map h.gathers).getD 0 := by
  have hkept (htakes : h.takes e = []) (hgathers : h.gathers = fun _ => 0)
      (hreports : (h.apply w e).outbox.reports = e.outbox.reports) :
      (h.takes e ++ (h.apply w e).outbox.reports).countP (HelperReport.isEndOf id) =
        e.outbox.reports.countP (HelperReport.isEndOf id) +
          ((e.connection? id).map h.gathers).getD 0 := by
    rw [htakes, hgathers, hreports, List.nil_append]
    cases e.connection? id <;> rfl
  cases h with
  | deliver => exact Endpoint.countP_collect hn hobserved id
  | takeOutbox =>
    show (e.collect.outbox.reports ++ []).countP _ = _
    rw [List.append_nil]
    exact Endpoint.countP_collect hn hobserved id
  | reap exits =>
    have hreaped : (e.onConnections (Endpoint.reapOne exits)).Numbered :=
      hn.of_ids (Connections.ids_map (Endpoint.id_reapOne exits) _) rfl
    have hfound : (e.onConnections (Endpoint.reapOne exits)).connection? id =
        (e.connection? id).map (Endpoint.reapOne exits) := by
      show (e.connections.items.map (Endpoint.reapOne exits)).find? (fun c => c.id == id) = _
      rw [List.find?_map]
      have hsame : (fun c : Connection τ => c.id == id) ∘ Endpoint.reapOne exits =
          fun c => c.id == id := funext fun c => congrArg (· == id) (Endpoint.id_reapOne exits c)
      rw [hsame]
      rfl
    have hcount := Endpoint.countP_collect hreaped (fun d hd => by
      obtain ⟨c, hc, rfl⟩ := List.mem_map.1 hd
      exact (Endpoint.tends_reapOne exits c).observed (hobserved c hc)) id
    rw [hfound, Option.map_map] at hcount
    exact hcount
  | drop => exact hkept rfl rfl rfl
  | _ => exact hkept rfl rfl (congrArg Outbox.reports (outbox_apply w rfl e).1)

end Happening

/-! ## One child and its observer -/

/-- What became of a child. -/
structure Custody where
  /-- The process that is waited for since the connection of the child was dropped. -/
  orphan : Option Pid := none
  /-- The connection was dropped before the end of the child was noted. -/
  abandoned : Bool := false
  /-- The exit status was collected. -/
  collected : Bool := false

namespace Custody

variable {τ ℓ : Type} {k : Custody} {h : Happening τ ℓ}

/-- What became of the child behind a connection after one thing more; the connection may not be
there yet, or be gone. -/
def after (before : Option (Connection τ)) (k : Custody) : Happening τ ℓ → Custody
  | .drop =>
    match (before.filter Connections.isSpent).bind (·.helper) with
    | some h => { k with
      orphan := if h.reaped then none else some h.pid
      abandoned := !h.ended }
    | none => k
  | .reap exits => { k with
      orphan := k.orphan.filter fun pid => (exits pid).isNone
      collected := k.collected || before.any (·.isReapable exits) ||
        k.orphan.any fun pid => (exits pid).isSome }
  | _ => k

/-- As long as the connection is there, all that can be done is to collect the exit status. -/
theorem after_some {c : Connection τ} (hstays : h = .drop → Connections.isSpent c = false)
    (collected : Bool) : ({ collected } : Custody).after (some c) h =
      { collected := collected || h.reaps c } := by
  cases h with
  | drop =>
    have hkept : (some c).filter Connections.isSpent = none := by simp [hstays rfl]
    simp [after, hkept, Happening.reaps]
  | reap exits => simp [after, Happening.reaps]
  | _ => simp [after, Happening.reaps]

theorem after_none (h : Happening τ ℓ) : ({} : Custody).after none h = {} := by
  cases h <;> rfl

theorem abandoned_after_none (k : Custody) (h : Happening τ ℓ) :
    (k.after none h).abandoned = k.abandoned := by
  cases h <;> rfl

/-- What the observer was told, so far, of the child behind a connection that may not be there. -/
def Fits (told : Nat) (k : Custody) : Option (Connection τ) → Prop
  | some c => told + c.untold = c.childOver.toNat ∧ k = { collected := c.isReaped }
  | none => (told = 0 ∧ k = {}) ∨ told = (!k.abandoned).toNat

/-- **Told once.** Whatever became of the child, its observer was told at most once; it was told
when the exit status was collected, unless the connection was dropped before. -/
theorem Fits.once {told : Nat} {before : Option (Connection τ)} (hk : k.Fits told before)
    (hobserved : ∀ c, before = some c → c.Observed) :
    told + (before.map (·.untold)).getD 0 ≤ 1 ∧
      (k.abandoned = true → told + (before.map (·.untold)).getD 0 = 0) ∧
      (k.collected = true →
        (told + (before.map (·.untold)).getD 0 = 1 ↔ k.abandoned = false)) := by
  cases before with
  | some c =>
    obtain ⟨htold, rfl⟩ := hk
    rw [Option.map_some, Option.getD_some, htold]
    refine ⟨Bool.toNat_le _, fun habandoned => ?_, fun hcollected => ?_⟩
    · cases habandoned
    · rw [(hobserved c rfl).ended hcollected]
      exact ⟨fun _ => rfl, fun _ => rfl⟩
  | none =>
    rw [Option.map_none, Option.getD_none, Nat.add_zero]
    rcases hk with ⟨rfl, rfl⟩ | rfl
    · refine ⟨Nat.zero_le 1, fun _ => rfl, fun hcollected => ?_⟩
      cases hcollected
    · cases k.abandoned <;> simp

end Custody

namespace Happening

variable {τ σ ℓ η : Type} {w : Wiring τ σ ℓ η} {Q : Command → Prop} {e : Endpoint τ σ ℓ η}

/-- **One thing that happens.** -/
theorem Follows.fits {h : Happening τ ℓ} {before after : Option (Connection τ)}
    (hfollows : h.Follows w Q e before after) {told : Nat} {k : Custody} (hk : k.Fits told before)
    (hobserved : ∀ c, before = some c → c.Observed)
    (hunborn : before = none → after ≠ none → told = 0 ∧ k = {}) :
    (k.after before h).Fits (told + (before.map h.gathers).getD 0) after := by
  cases hfollows with
  | @stays c d hc htreats =>
    have htends := htreats.tends
    have hstays : h = .drop → Connections.isSpent c = false := by
      rintro rfl
      exact htreats.2
    obtain ⟨htold, rfl⟩ := hk
    refine ⟨?_, by rw [Custody.after_some hstays, htends.reaped]⟩
    have hsum := htends.told
    show told + h.gathers c + d.untold = d.childOver.toNat
    omega
  | comes hnew =>
    obtain ⟨rfl, rfl⟩ := hunborn rfl nofun
    obtain ⟨-, huntold, hreaped⟩ := observed_of_newcomer (e := e) hnew
    obtain ⟨-, -, hover, -⟩ := linked_of_newcomer (e := e) hnew
    refine ⟨?_, by rw [Custody.after_none, hreaped]⟩
    rw [huntold, hover]
    rfl
  | @goes c hdrop hclosed hevents =>
    subst hdrop
    obtain ⟨htold, rfl⟩ := hk
    -- nothing waits any more, because the events were delivered
    have huntold : c.untold = 0 := by
      by_contra hwaits
      exact (hobserved c rfl).noted hwaits hevents
    have hspent : (some c).filter Connections.isSpent = some c := by
      simp [Connections.isSpent, Connection.hasEvents, hclosed, hevents]
    rw [huntold, Nat.add_zero] at htold
    subst htold
    show Custody.Fits _ (Custody.after _ _ _) none
    unfold Custody.after Connection.isReaped Connection.childOver
    dsimp only
    rw [hspent]
    cases hchild : c.helper with
    | none => exact .inl ⟨rfl, by simp [hchild]⟩
    | some child =>
      right
      simp [hchild, gathers]
  | absent =>
    rcases hk with ⟨rfl, rfl⟩ | htold
    · exact .inl ⟨rfl, Custody.after_none h⟩
    · right
      rw [Custody.abandoned_after_none]
      exact htold

/-- A child that is waited for without a connection is one of the endpoint's. -/
theorem orphan_apply {h : Happening τ ℓ} {k : Custody} {id : ConnId}
    (hk : ∀ pid, k.orphan = some pid → pid ∈ e.orphans) (pid : Pid)
    (hpid : (k.after (e.connection? id) h).orphan = some pid) : pid ∈ (h.apply w e).orphans := by
  have hkept (hkeeps : h.clears = false) (hafter : k.after (e.connection? id) h = k) :
      pid ∈ (h.apply w e).orphans := by
    rw [(outbox_apply w hkeeps e).2]
    exact hk pid (hafter ▸ hpid)
  cases h with
  | deliver => exact hk pid hpid
  | takeOutbox => exact hk pid hpid
  | reap exits =>
    obtain ⟨horphan, hwaits⟩ := Option.filter_eq_some_iff.1 hpid
    exact List.mem_filter.2 ⟨hk pid horphan, hwaits⟩
  | drop =>
    unfold Custody.after at hpid
    dsimp only at hpid
    split at hpid
    · next child hchild =>
      obtain ⟨c, hc, hhelper⟩ := Option.bind_eq_some_iff.1 hchild
      obtain ⟨hfound, hspent⟩ := Option.filter_eq_some_iff.1 hc
      split at hpid
      · cases hpid
      · next hwaits =>
        cases hpid
        have hdropped : child ∈ (e.connections.items.filter Connections.isSpent).filterMap
            (·.helper) :=
          List.mem_filterMap.2
            ⟨c, List.mem_filter.2 ⟨Connections.mem_of_get? hfound, hspent⟩, hhelper⟩
        exact List.mem_append_right _
          (List.mem_map_of_mem (List.mem_filter.2 ⟨hdropped, by simpa using hwaits⟩))
    · exact List.mem_append_left _ (hk pid hpid)
  | _ => exact hkept rfl rfl

/-- What became of the child behind the connection of a number in a run. -/
def custody (w : Wiring τ σ ℓ η) (id : ConnId) :
    List (Happening τ ℓ) → Endpoint τ σ ℓ η → Custody → Custody
  | [], _, k => k
  | h :: hs, e, k => custody w id hs (h.apply w e) (k.after (e.connection? id) h)

/-- How often the end of one child was told, or waits in the outbox. -/
def told (id : ConnId) (taken : List HelperReport) (e : Endpoint τ σ ℓ η) : Nat :=
  (taken ++ e.outbox.reports).countP (HelperReport.isEndOf id)

/-- What is known at any time of the child behind the connection of a number, from the reports that
were taken. -/
structure Attends (id : ConnId) (taken : List HelperReport) (k : Custody)
    (e : Endpoint τ σ ℓ η) : Prop where
  numbered : e.Numbered
  observed : ∀ c ∈ e.connections.items, c.Observed
  fits : k.Fits (told id taken e) (e.connection? id)
  orphan : ∀ pid, k.orphan = some pid → pid ∈ e.orphans
  unborn : e.connections.lastId < id → told id taken e = 0 ∧ k = {}

theorem observed_apply (w : Wiring τ σ ℓ η) (hn : e.Numbered)
    (hobserved : ∀ c ∈ e.connections.items, c.Observed) (h : Happening τ ℓ) :
    ∀ d ∈ (h.apply w e).connections.items, d.Observed := by
  intro d hd
  rcases origin (fun _ _ => Reaction.orders_any _) hn hd
    with ⟨c, hc, htreats⟩ | ⟨new, hnew, rfl⟩
  · exact htreats.tends.observed (hobserved c hc)
  · exact (observed_of_newcomer hnew).1

/-- **One thing that happens.** -/
theorem Attends.apply {id : ConnId} {taken : List HelperReport} {k : Custody}
    (ha : Attends id taken k e) (w : Wiring τ σ ℓ η) (h : Happening τ ℓ) :
    Attends id (taken ++ h.takes e) (k.after (e.connection? id) h) (h.apply w e) := by
  have hfollows := follows (w := w) (fun _ _ => Reaction.orders_any _) ha.numbered h id
  have htold : told id (taken ++ h.takes e) (h.apply w e) =
      told id taken e + ((e.connection? id).map h.gathers).getD 0 := by
    unfold told
    rw [List.append_assoc, List.countP_append, countP_apply ha.numbered ha.observed,
      List.countP_append, Nat.add_assoc]
  refine ⟨numbered_apply w ha.numbered h, observed_apply w ha.numbered ha.observed h, ?_,
    orphan_apply ha.orphan, fun hunborn => ?_⟩
  · rw [htold]
    refine hfollows.fits ha.fits
      (fun c hc => ha.observed c (Connections.mem_of_get? hc)) fun hnone hsome => ?_
    obtain ⟨d, hd⟩ := Option.ne_none_iff_exists'.1 hsome
    rw [hnone, hd] at hfollows
    exact ha.unborn (Connections.id_of_get? hd ▸ hfollows.unborn)
  · have hlast := Nat.lt_of_le_of_lt (lastId_apply w h e) hunborn
    obtain ⟨hnothing, rfl⟩ := ha.unborn hlast
    have hnone : e.connection? id = none := ha.numbered.connection?_of_unborn hlast
    rw [htold, hnone]
    exact ⟨hnothing, Custody.after_none h⟩

/-- **Every run.** -/
theorem attends_run (w : Wiring τ σ ℓ η) {id : ConnId} (hs : List (Happening τ ℓ))
    {before : List HelperReport} {k : Custody} {e : Endpoint τ σ ℓ η}
    (ha : Attends id before k e) :
    Attends id (before ++ taken w hs e) (custody w id hs e k) (run w hs e) := by
  induction hs generalizing before k e with
  | nil => simpa [taken, custody] using ha
  | cons h hs ih =>
    have hrest := ih (ha.apply w h)
    rwa [List.append_assoc] at hrest

/-- What the observer was told is what was taken and what would be taken next. -/
theorem Attends.countP_eq {id : ConnId} {taken : List HelperReport} {k : Custody}
    (ha : Attends id taken k e) :
    (taken ++ e.takeOutbox.1.reports).countP (HelperReport.isEndOf id) =
      told id taken e + ((e.connection? id).map (·.untold)).getD 0 := by
  show (_ ++ e.collect.outbox.reports).countP _ = _
  rw [List.countP_append, Endpoint.countP_collect ha.numbered ha.observed, ← Nat.add_assoc,
    ← List.countP_append]
  rfl

end Happening

namespace Endpoint

open Happening (run taken custody)

variable {τ σ ℓ η : Type}

/-- **The observer is told once, unless the connection of the child was dropped first.** In every
run the end of a child is told at most once. Once the exit status was collected, at the connection
of the child or without it, the end was told, exactly if the connection was not dropped before the
end was noted. Where it was, the child is waited for as an orphan and the end is never told. Whole
passes and a shutdown are such runs by `run_tick` and `run_shutdown`. -/
theorem told_once_iff (w : Wiring τ σ ℓ η) (settings : Settings) (device : σ)
    (past : List (Happening τ ℓ)) (id : ConnId) :
    let start : Endpoint τ σ ℓ η := { settings, device }
    let e := run w past start
    let child := custody w id past start {}
    let ends := (taken w past start ++ e.takeOutbox.1.reports).countP (HelperReport.isEndOf id)
    ends ≤ 1 ∧ (child.abandoned = true → ends = 0) ∧
      (child.collected = true → (ends = 1 ↔ child.abandoned = false)) ∧
      (∀ c, e.connection? id = some c → child = { collected := c.isReaped }) ∧
      ∀ pid, child.orphan = some pid → pid ∈ e.orphans := by
  intro start e child ends
  have hstart : Happening.Attends id [] {} start := by
    refine ⟨numbered_new settings device, fun c hc => ?_, .inl ⟨rfl, rfl⟩, fun _ h => ?_,
      fun _ => ⟨rfl, rfl⟩⟩
    · cases hc
    · cases h
  have hrun : Happening.Attends id (taken w past start) child e :=
    Happening.attends_run w past hstart
  obtain ⟨hle, habandoned, hcollected⟩ :=
    hrun.fits.once fun c hc => hrun.observed c (Connections.mem_of_get? hc)
  rw [← hrun.countP_eq] at hle habandoned hcollected
  refine ⟨hle, habandoned, hcollected, fun c hc => ?_, hrun.orphan⟩
  have hfits := hrun.fits
  rw [hc] at hfits
  exact hfits.2

/-- A child is closed and does not end before the next pass, so its connection is dropped and the
child is interrupted. Once it has ended, its exit status is collected, and its observer was told
nothing. -/
theorem untold_of_close :
    let w : Wiring Wire Unit Unit Event :=
      ⟨Wire.transport, Device.passive, fun _ event => .note event (.done ())⟩
    let child : StartedHelper Wire := ⟨7, {}, {}⟩
    let e : Endpoint Wire Unit Unit Event := run w
      [.adopt { name := "dome", path := "/bin/sh" } (.ok child) 0] { settings := {}, device := () }
    ∃ e', e.close w 1 = .ok e' ∧
      let dropped := e'.idle w 1 fun _ => none
      let ended := dropped.idle w 2 fun _ => some (.signaled .int)
      dropped.children = [7] ∧ dropped.outbox.signals = [⟨7, false, .int⟩] ∧
        ended.children = [] ∧ ended.takeOutbox.1.reports = [] := by
  intro w child e
  obtain ⟨c, hc⟩ : ∃ c, e.connection? 1 = some c := Option.isSome_iff_exists.1 (by decide)
  refine ⟨run w [.askClose 1, .deliver] e, run_close w e hc, ?_⟩
  decide +kernel

end Endpoint

end Observatory
