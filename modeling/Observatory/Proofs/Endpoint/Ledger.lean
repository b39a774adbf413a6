import Observatory.Connection.Wire
import Observatory.Proofs.Connection.Ledger
import Observatory.Proofs.Endpoint.Children
/-!
# No change is lost

Several clients add to one number and take away from it, each over its own connection, and their
bytes arrive in any order and in any pieces. However they are mixed, the number is what it was,
moved by the operands of exactly those requests that were answered with the code zero, and each of
these was reported once, by the connection that it came over.

* `Happening.frames`, `Happening.shifts` — what is heard when something happens, and the requests
  among it.
* `Happening.Reckoned` — the ledger of all connections is right; `reckoned_apply` for one thing that
  happens and `reckoned_run` for a run.
* `Endpoint.changes_kept` — every run.
-/

namespace Observatory

open Connection (Booked recordOf?)
open Framing (Frame)

/-! ## The part of one connection -/

/-- Came over the connection of a number, and was done. -/
def Shift.isTakenOf (id : ConnId) (s : Shift) : Bool := s.conn == id && s.taken

/-- What a connection has to report grew by the requests that came over it and were done. -/
def Connection.Accounts {τ : Type} (name : String) (shifts : List Shift) (c d : Connection τ) :
    Prop :=
  d.id = c.id ∧ d.setsOf name = c.setsOf name + shifts.countP (Shift.isTakenOf c.id)

namespace Connection.Accounts

variable {τ : Type} {name : String} {as bs : List Shift} {c d : Connection τ}

theorem of_booked {σ : Type} {b : Base} {n : Int} {t t' : Turn τ σ}
    (h : Booked name b n t as t') (hid : t'.conn.id = t.conn.id) :
    Accounts name as t.conn t'.conn := by
  refine ⟨hid, ?_⟩
  rw [h.sets, List.countP_congr (q := Shift.isTakenOf t.conn.id)]
  intro s hs
  simp [Shift.isTakenOf, (h.fair s hs).1]

/-- The requests of other connections do not count. -/
theorem append_left (h : Accounts name as c d) (hothers : ∀ s ∈ bs, s.conn ≠ c.id) :
    Accounts name (as ++ bs) c d := by
  have hnone : bs.countP (Shift.isTakenOf c.id) = 0 :=
    List.countP_eq_zero.2 fun s hs => by simp [Shift.isTakenOf, hothers s hs]
  refine ⟨h.1, ?_⟩
  rw [List.countP_append, hnone, h.2, Nat.add_zero]

theorem append_right (h : Accounts name bs c d) (hothers : ∀ s ∈ as, s.conn ≠ c.id) :
    Accounts name (as ++ bs) c d := by
  have hnone : as.countP (Shift.isTakenOf c.id) = 0 :=
    List.countP_eq_zero.2 fun s hs => by simp [Shift.isTakenOf, hothers s hs]
  refine ⟨h.1, ?_⟩
  rw [List.countP_append, hnone, h.2, Nat.zero_add]

end Connection.Accounts

namespace Endpoint

variable {τ σ ℓ η : Type} {w : Wiring τ σ ℓ η} {name : String}

/-! ## Reading from all connections -/

/-- The requests among what one connection reads in a pass. -/
def shiftsOne (w : Wiring τ σ ℓ η) (name : String) (p : Pass τ) (t : Turn τ σ) : List Shift :=
  let conn := (t.conn.pollConnect (p.connects t.conn.id) p.now).2
  match conn.link with
  | .stream s =>
    Connection.shiftsFor w.transport w.device name p.now (w.transport.readings s + 1)
      { t with conn }
  | _ => []

/-- The requests among what all of them read, one connection after another. -/
def shiftsEach (w : Wiring τ σ ℓ η) (name : String) (p : Pass τ) :
    List (Connection τ) → Local σ → List Shift
  | [], _ => []
  | c :: rest, own =>
    shiftsOne w name p ⟨c, own⟩ ++ shiftsEach w name p rest (readOne w p ⟨c, own⟩).2.own

theorem booked_readOne (hdev : w.device.LeavesAlone name) (p : Pass τ) {t : Turn τ σ} {b : Base}
    {n : Int} (hframes : ∀ frame ∈ heardOne w p t, ∀ r ∈ recordOf? frame, ¬ r.Overwrites name)
    (hheld : t.own.values.tally? name = some (b, n)) :
    Booked name b n t (shiftsOne w name p t) (readOne w p t).2 := by
  have hup : (t.conn.pollConnect (p.connects t.conn.id) p.now).2.setsOf name =
      t.conn.setsOf name := Connection.setsOf_pollConnect _ _ _
  have hid := Connection.id_pollConnect (p.connects t.conn.id) p.now t.conn
  unfold heardOne at hframes
  unfold shiftsOne readOne Connection.readPass
  dsimp only at hframes ⊢
  generalize (t.conn.pollConnect (p.connects t.conn.id) p.now).2 = up at hframes hup hid ⊢
  have herrors (c : Connection τ) : (c.errorPass w.transport).2.setsOf name = c.setsOf name :=
    Connection.setsOf_errorPass _ c
  cases hlink : up.link with
  | detached => exact Connection.Unmoved.booked ⟨rfl, (herrors up).trans hup⟩ hheld
  | connecting address => exact Connection.Unmoved.booked ⟨rfl, (herrors up).trans hup⟩ hheld
  | stream s =>
    rw [hlink] at hframes
    have hread := Connection.booked_readFor (t := { t with conn := up }) hdev w.transport p.now
      (w.transport.readings s + 1) false hframes hheld
    refine ⟨hread.tally, ?_, fun s hs => ?_⟩
    · rw [herrors, hread.sets, hup]
    · rw [← hid]
      exact hread.fair s hs

/-- **A pass over all connections.** -/
theorem booked_readEach (hdev : w.device.LeavesAlone name) (p : Pass τ) {b : Base} {n : Int}
    {items : List (Connection τ)} (hids : (items.map (·.id)).Nodup) {own : Local σ}
    (hframes : ∀ frame ∈ heardEach w p items own, ∀ r ∈ recordOf? frame, ¬ r.Overwrites name)
    (hheld : own.values.tally? name = some (b, n)) :
    let shifts := shiftsEach w name p items own
    (readEach w p items own).2.2.values.tally? name = some (b, n + Shift.total shifts) ∧
      (∀ d ∈ (readEach w p items own).2.1, ∃ c ∈ items, Connection.Accounts name shifts c d) ∧
      ∀ s ∈ shifts, s.conn ∈ items.map (·.id) ∧ s.IsFair b := by
  induction items generalizing own n with
  | nil => exact ⟨by simp [readEach, shiftsEach, hheld], by simp [readEach], by simp [shiftsEach]⟩
  | cons c rest ih =>
    rw [List.map_cons, List.nodup_cons] at hids
    have hfirst := booked_readOne hdev p (t := ⟨c, own⟩)
      (fun f hf => hframes f (List.mem_append_left _ hf)) hheld
    obtain ⟨htally, haccounts, hfair⟩ := ih hids.2
      (fun f hf => hframes f (List.mem_append_right _ hf)) hfirst.tally
    refine ⟨?_, fun d hd => ?_, fun s hs => ?_⟩
    · show (readEach w p rest (readOne w p ⟨c, own⟩).2.own).2.2.values.tally? name = _
      rw [htally, shiftsEach, Shift.total_append, Int.add_assoc]
    · rcases List.mem_cons.1 hd with rfl | hd
      · have hown := Connection.Accounts.of_booked hfirst (id_readOne w p ⟨c, own⟩)
        refine ⟨c, List.mem_cons_self, hown.append_left fun s hs hconn => hids.1 ?_⟩
        exact hconn ▸ (hfair s hs).1
      · obtain ⟨x, hx, hd⟩ := haccounts d hd
        refine ⟨x, List.mem_cons_of_mem _ hx, hd.append_right fun s hs hconn => hids.1 ?_⟩
        rw [← (hfirst.fair s hs).1, hconn]
        exact List.mem_map_of_mem hx
    · rcases List.mem_append.1 hs with hs | hs
      · obtain ⟨hconn, hs⟩ := hfirst.fair s hs
        exact ⟨hconn ▸ List.mem_cons_self, hs⟩
      · obtain ⟨hconn, hs⟩ := hfair s hs
        exact ⟨List.mem_cons_of_mem _ hconn, hs⟩

theorem setsOf_announceTo (old new : DeviceStatus) (c : Connection τ) :
    (announceTo old new c).setsOf name = c.setsOf name := by
  unfold announceTo
  split
  · rfl
  · split <;> rfl

theorem setsOf_reapOne (exits : Pid → Option ChildExit) (c : Connection τ) :
    (reapOne exits c).setsOf name = c.setsOf name := by
  rcases reapOne_cases exits c with ⟨-, exit, -, -, hreap⟩ | ⟨-, hreap⟩
  · rw [hreap]
    exact Connection.setsOf_childReturned exit c
  · rw [hreap]

end Endpoint

namespace Happening

variable {τ σ ℓ η : Type} {w : Wiring τ σ ℓ η} {Q : Command → Prop} {e : Endpoint τ σ ℓ η}
  {name : String}

/-! ## One thing that happens -/

/-- The lines that are completed by what is heard. -/
def frames (w : Wiring τ σ ℓ η) : Happening τ ℓ → Endpoint τ σ ℓ η → List Frame
  | hear conn _ bytes, e =>
    match e.connection? conn with
    | none => []
    | some c => (c.input.push bytes).1
  | read p, e => Endpoint.heardEach w p e.connections.items ⟨e.values, e.device⟩
  | _, _ => []

/-- The requests among them. -/
def shifts (w : Wiring τ σ ℓ η) (name : String) :
    Happening τ ℓ → Endpoint τ σ ℓ η → List Shift
  | hear conn now bytes, e =>
    match e.connection? conn with
    | none => []
    | some c => Connection.shiftsIn w.device name now bytes ⟨c, ⟨e.values, e.device⟩⟩
  | read p, e => Endpoint.shiftsEach w name p e.connections.items ⟨e.values, e.device⟩
  | _, _ => []

/-- Nobody assigns to the value of a name: no line that is heard, and not the owner. -/
def Spares (w : Wiring τ σ ℓ η) (name : String) : Happening τ ℓ → Endpoint τ σ ℓ η → Prop
  | touch values, e => values.tally? name = e.values.tally? name
  | h, e => ∀ frame ∈ h.frames w e, ∀ r ∈ recordOf? frame, ¬ r.Overwrites name

/-- Bytes of peers arrive, on one connection or on all. -/
def isHearing : Happening τ ℓ → Bool
  | hear _ _ _ => true
  | read _ => true
  | _ => false

/-- **Where nothing is heard**, no change is reported. -/
theorem Treats.setsOf {h : Happening τ ℓ} (hdeliver : h ≠ .deliver) (hdeaf : h.isHearing = false)
    {c d : Connection τ} (htreats : h.Treats w Q e c d) : d.setsOf name = c.setsOf name := by
  cases h with
  | queue conn command =>
    subst htreats
    split
    · exact Connection.setsOf_queueCommand _ _ c
    · rfl
  | queueTo peer command =>
    rcases htreats with rfl | rfl
    · rfl
    · exact Connection.setsOf_queueCommand _ _ c
  | hear conn now bytes => cases hdeaf
  | askClose conn =>
    subst htreats
    split
    · exact Connection.setsOf_close _ c
    · rfl
  | askCloseAll => subst htreats; exact Connection.setsOf_close _ c
  | setStatus mask bits => subst htreats; exact Endpoint.setsOf_announceTo _ _ c
  | infoAll =>
    subst htreats
    split
    · exact congrArg (List.countP _) (Connection.events_sendValues _ c)
    · rfl
  | message _ _ _ _ =>
    subst htreats
    split <;> rfl
  | read p => cases hdeaf
  | write =>
    subst htreats
    unfold Endpoint.writeOne
    split
    · exact Connection.setsOf_writePass _ c
    · rfl
  | deliver => exact absurd rfl hdeliver
  | drop => rw [htreats.1]
  | reap exits => subst htreats; exact Endpoint.setsOf_reapOne exits c
  | watch now => subst htreats; exact Connection.setsOf_idle now c
  | runDevice => subst htreats; exact Endpoint.setsOf_announceTo _ _ c
  | broadcastDirty =>
    subst htreats
    split
    · exact Connection.setsOf_broadcastDirty _ c
    · rfl
  | takeOutbox => subst htreats; rfl
  | takeOutput conn =>
    subst htreats
    split <;> rfl
  | _ => subst htreats; rfl

/-- **Where nothing is heard**, nothing moves. -/
theorem tally?_apply (hdev : w.device.LeavesAlone name) {h : Happening τ ℓ}
    (hdeaf : h.isHearing = false) (hspares : h.Spares w name e) :
    (h.apply w e).values.tally? name = e.values.tally? name := by
  have hone (id : ConnId) (f : Connection τ → Connection τ) :
      (e.onOne id f).values.tally? name = e.values.tally? name := by
    unfold Endpoint.onOne
    split <;> rfl
  cases h with
  | touch values => exact hspares
  | hear conn now bytes => cases hdeaf
  | read p => cases hdeaf
  | adopt spec started now =>
    rcases apply_adopt w spec started now e with ⟨-, happly⟩ | ⟨child, limit, -, happly⟩
    · rw [happly]
    · rw [happly]
      rfl
  | askClose conn => exact hone conn _
  | setStatus mask bits => exact congrArg _ (Endpoint.values_setStatus mask bits e)
  | runDevice => exact (congrArg _ (Endpoint.values_runDevice w e)).trans (hdev.idle _ _)
  | broadcastDirty =>
    show e.broadcastDirty.values.tally? name = _
    unfold Endpoint.broadcastDirty
    split
    · exact Registry.tally?_clearDirty name e.values
    · rfl
  | infoAll => exact Registry.tally?_clearDirty name e.values
  | takeOutput conn => exact hone conn _
  | _ => rfl

/-- **The ledger of all connections is right**: the number moved by what was done, each connection
reported its own part once, and every request got a fair answer. -/
structure Reckoned (name : String) (b : Base) (n : Int) (e : Endpoint τ σ ℓ η)
    (told : ConnId → List Event) (shifts : List Shift) (e' : Endpoint τ σ ℓ η) : Prop where
  numbered : e'.Numbered
  tally : e'.values.tally? name = some (b, n + Shift.total shifts)
  sets : ∀ id, (told id ++ e'.eventsOf id).countP (Event.isSetOf name) =
    (e.eventsOf id).countP (Event.isSetOf name) + shifts.countP (Shift.isTakenOf id)
  fair : ∀ s ∈ shifts, s.IsFair b

section

variable {b : Base} {n : Int}

/-- It is enough that every connection accounts for what came over it. -/
theorem reckoned_of_accounts {h : Happening τ ℓ} (hn : e.Numbered) (hdeliver : h ≠ .deliver)
    (htally : (h.apply w e).values.tally? name = some (b, n + Shift.total (h.shifts w name e)))
    (hfair : ∀ s ∈ h.shifts w name e, s.conn ∈ e.connections.ids ∧ s.IsFair b)
    (haccounts : ∀ c ∈ e.connections.items, ∀ d ∈ (h.apply w e).connections.items,
      h.Treats w (fun _ => True) e c d → Connection.Accounts name (h.shifts w name e) c d) :
    Reckoned name b n e (fun id => h.hands id e) (h.shifts w name e) (h.apply w e) := by
  refine ⟨numbered_apply w hn h, htally, fun id => ?_, fun s hs => (hfair s hs).2⟩
  have hfollows := follows (w := w) (fun _ _ => Reaction.orders_any _) hn h id
  rw [hands_of_ne hdeliver, List.nil_append]
  unfold Endpoint.eventsOf
  cases hc : e.connection? id with
  | none =>
    -- nobody has the number, so no request came over it, and whoever comes has nothing to report
    have hnobody : (h.shifts w name e).countP (Shift.isTakenOf id) = 0 := by
      refine List.countP_eq_zero.2 fun s hs htaken => ?_
      simp only [Shift.isTakenOf, Bool.and_eq_true, beq_iff_eq] at htaken
      obtain ⟨c, hmem, hid⟩ := Endpoint.exists_of_mem_ids (hfair s hs).1
      rw [← htaken.1, ← hid, hn.connection?_of_mem hmem] at hc
      cases hc
    rw [hnobody]
    cases hd : (h.apply w e).connection? id with
    | none => rfl
    | some d =>
      rw [hc, hd] at hfollows
      cases hfollows with
      | comes hnew =>
        rw [Option.map_some, Option.getD_some, (linked_of_newcomer hnew).2.1]
        rfl
  | some c =>
    cases hd : (h.apply w e).connection? id with
    | none =>
      rw [hc, hd] at hfollows
      cases hfollows with
      | goes hgone _ hevents =>
        subst hgone
        rw [Option.map_some, Option.getD_some, hevents]
        rfl
    | some d =>
      rw [hc, hd] at hfollows
      cases hfollows with
      | stays hmem htreats =>
        obtain ⟨-, hsets⟩ := haccounts c hmem d (Connections.mem_of_get? hd) htreats
        rw [Connections.id_of_get? hc] at hsets
        exact hsets

/-- Nothing is heard. -/
theorem reckoned_of_deaf (hdev : w.device.LeavesAlone name) (hn : e.Numbered)
    (hheld : e.values.tally? name = some (b, n)) {h : Happening τ ℓ} (hdeaf : h.isHearing = false)
    (hspares : h.Spares w name e) :
    Reckoned name b n e (fun id => h.hands id e) (h.shifts w name e) (h.apply w e) := by
  have hnone : h.shifts w name e = [] := by cases h <;> first | rfl | cases hdeaf
  have htally := (tally?_apply hdev hdeaf hspares).trans hheld
  by_cases hdeliver : h = .deliver
  · subst hdeliver
    refine ⟨numbered_apply w hn _, by simpa [hnone] using htally, fun id => ?_, by simp [hnone]⟩
    have hempty : ((deliver : Happening τ ℓ).apply w e).eventsOf id = [] := by
      have hdue := ((Endpoint.due_eq_nil_iff _).1 (Endpoint.due_deliver w e)).2
      unfold Endpoint.eventsOf
      cases hd : ((deliver : Happening τ ℓ).apply w e).connection? id with
      | none => rfl
      | some d => exact hdue d (Connections.mem_of_get? hd)
    rw [hempty, hnone, List.append_nil]
    rfl
  · refine reckoned_of_accounts hn hdeliver (by simpa [hnone] using htally) (by simp [hnone]) ?_
    intro c _ d _ htreats
    rw [hnone]
    exact ⟨htreats.id, htreats.setsOf hdeliver hdeaf⟩

/-- Bytes arrive on one connection. -/
theorem reckoned_hear (hdev : w.device.LeavesAlone name) (hn : e.Numbered)
    (hheld : e.values.tally? name = some (b, n)) {conn : ConnId} {now : Instant} {bytes : Bytes}
    (hspares : (hear conn now bytes : Happening τ ℓ).Spares w name e) :
    Reckoned name b n e (fun _ => []) ((hear conn now bytes : Happening τ ℓ).shifts w name e)
      (e.hear w conn now bytes) := by
  have hframes : ∀ frame ∈ (hear conn now bytes : Happening τ ℓ).frames w e, ∀ r ∈ recordOf? frame,
      ¬ r.Overwrites name := hspares
  cases hfound : e.connection? conn with
  | none =>
    have hshifts : (hear conn now bytes : Happening τ ℓ).shifts w name e = [] := by
      simp only [shifts, hfound]
    have hsame : e.hear w conn now bytes = e := by simp only [Endpoint.hear, hfound]
    rw [hshifts, hsame]
    exact ⟨hn, by simpa using hheld, fun _ => rfl, fun s hs => by cases hs⟩
  | some c =>
    have hshifts : (hear conn now bytes : Happening τ ℓ).shifts w name e =
        Connection.shiftsIn w.device name now bytes ⟨c, ⟨e.values, e.device⟩⟩ := by
      simp only [shifts, hfound]
    have hvalues : (e.hear w conn now bytes).values = (e.heard w now bytes c).own.values := by
      simp only [Endpoint.hear, hfound]
    have hid : c.id = conn := Connections.id_of_get? hfound
    have hmem := Connections.mem_of_get? hfound
    simp only [frames, hfound] at hframes
    have hbooked :=
      Connection.booked_receive (t := ⟨c, ⟨e.values, e.device⟩⟩) hdev now hframes hheld
    refine reckoned_of_accounts (h := hear conn now bytes) hn (fun h => by cases h) ?_ ?_ ?_
    · rw [hshifts]
      exact (congrArg _ hvalues).trans hbooked.tally
    · rw [hshifts]
      intro s hs
      obtain ⟨hconn, hfair⟩ := hbooked.fair s hs
      exact ⟨hconn ▸ List.mem_map_of_mem hmem, hfair⟩
    · intro x hx d _ htreats
      rw [hshifts, show d = _ from htreats]
      split
      · next hsame =>
        obtain rfl : x = c := hn.eq_of_id hx hmem (hsame.trans hid.symm)
        exact .of_booked hbooked (Connection.converses_receive (Q := fun _ => True) _ _ _ _).id
      · next hother =>
        have hquiet : Connection.Accounts name [] x x := ⟨rfl, rfl⟩
        refine hquiet.append_left fun s hs hconn => hother ?_
        rw [← hconn, (hbooked.fair s hs).1, ← hid]

/-- Every connection reads what its peer has to give. -/
theorem reckoned_read (hdev : w.device.LeavesAlone name) (hn : e.Numbered)
    (hheld : e.values.tally? name = some (b, n)) {p : Pass τ}
    (hspares : (read p : Happening τ ℓ).Spares w name e) :
    Reckoned name b n e (fun _ => []) ((read p : Happening τ ℓ).shifts w name e)
      (e.read w p).2 := by
  obtain ⟨htally, haccounts, hfair⟩ := Endpoint.booked_readEach hdev p hn.distinct hspares hheld
  refine reckoned_of_accounts (h := read p) hn (fun h => by cases h) htally hfair ?_
  intro c hc d hd htreats
  obtain ⟨x, hx, hd⟩ := haccounts d hd
  obtain rfl : x = c := hn.eq_of_id hx hc (hd.1.symm.trans htreats.id)
  exact hd

/-- **One thing that happens.** -/
theorem reckoned_apply (hdev : w.device.LeavesAlone name) (hn : e.Numbered)
    (hheld : e.values.tally? name = some (b, n)) {h : Happening τ ℓ}
    (hspares : h.Spares w name e) :
    Reckoned name b n e (fun id => h.hands id e) (h.shifts w name e) (h.apply w e) := by
  cases h with
  | hear conn now bytes => exact reckoned_hear hdev hn hheld hspares
  | read p => exact reckoned_read hdev hn hheld hspares
  | _ => exact reckoned_of_deaf hdev hn hheld rfl hspares

end

/-- The requests that are heard in a run, in their order. -/
def shiftsDuring (w : Wiring τ σ ℓ η) (name : String) :
    List (Happening τ ℓ) → Endpoint τ σ ℓ η → List Shift
  | [], _ => []
  | h :: hs, e => h.shifts w name e ++ shiftsDuring w name hs (h.apply w e)

/-- Nobody assigns to the value of a name in a run. -/
def SparesAll (w : Wiring τ σ ℓ η) (name : String) :
    List (Happening τ ℓ) → Endpoint τ σ ℓ η → Prop
  | [], _ => True
  | h :: hs, e => h.Spares w name e ∧ SparesAll w name hs (h.apply w e)

theorem Reckoned.append {b : Base} {n : Int} {d f : Endpoint τ σ ℓ η}
    {told told' : ConnId → List Event} {as bs : List Shift} (h : Reckoned name b n d told as e)
    (h' : Reckoned name b (n + Shift.total as) e told' bs f) :
    Reckoned name b n d (fun id => told id ++ told' id) (as ++ bs) f where
  numbered := h'.numbered
  tally := by rw [h'.tally, Shift.total_append, Int.add_assoc]
  sets := fun id => by
    have hfirst := h.sets id
    have hsecond := h'.sets id
    simp only [List.countP_append] at hfirst hsecond ⊢
    omega
  fair := fun s hs => by
    rcases List.mem_append.1 hs with hs | hs
    · exact h.fair s hs
    · exact h'.fair s hs

/-- **Every run.** -/
theorem reckoned_run (hdev : w.device.LeavesAlone name) {hs : List (Happening τ ℓ)} {b : Base}
    {n : Int} (hn : e.Numbered) (hheld : e.values.tally? name = some (b, n))
    (hspares : SparesAll w name hs e) :
    Reckoned name b n e (fun id => handed w id hs e) (shiftsDuring w name hs e) (run w hs e) := by
  induction hs generalizing e n with
  | nil => exact ⟨hn, by simpa [shiftsDuring] using hheld, fun _ => rfl, fun s hs => by cases hs⟩
  | cons h hs ih =>
    have hfirst := reckoned_apply hdev hn hheld hspares.1
    exact hfirst.append (ih hfirst.numbered hfirst.tally hspares.2)

end Happening

namespace Endpoint

open Happening (run handed shiftsDuring SparesAll)

variable {τ σ ℓ η : Type}

/-- **No change is lost.** Clients add to a whole number and take away from it, over any number of
connections, in any order and in any pieces, among whatever else they send and whatever else
happens; only nobody assigns to it. Then the number is what it was, moved by the signed operands of
exactly the requests that were answered with the code zero. Each connection reports a change as
often as a request that came over it was answered so, no more and no less. Every request is
answered, and with a negative code where its exact result does not fit. -/
theorem changes_kept (w : Wiring τ σ ℓ η) {name : String} (hdev : w.device.LeavesAlone name)
    {e : Endpoint τ σ ℓ η} (hn : e.Numbered) {b : Base} {n : Int}
    (hheld : e.values.tally? name = some (b, n)) {past : List (Happening τ ℓ)}
    (hspares : SparesAll w name past e) :
    let e' := run w past e
    let shifts := shiftsDuring w name past e
    e'.values.tally? name = some (b, n + ((shifts.filter Shift.taken).map Shift.amount).sum) ∧
      (∀ id, (handed w id past e ++ e'.eventsOf id).countP (Event.isSetOf name) =
        (e.eventsOf id).countP (Event.isSetOf name) +
          shifts.countP fun s => s.conn == id && s.taken) ∧
      ∀ s ∈ shifts, ∃ m code, s.held = some (b, m) ∧ s.answer = some code ∧
        (code < 0 ∨ code = 0 ∧ ∃ k, Number.ofText? s.operand.toList = some k ∧
          b.Fits (Scalar.combineInt s.op m k)) := by
  have hreckoned := Happening.reckoned_run hdev hn hheld hspares
  exact ⟨hreckoned.tally, hreckoned.sets, hreckoned.fair⟩

/-- Two clients, whose lines arrive in pieces: one asks for too much, takes one away and then adds
what is no number, and the other adds three. -/
theorem changes_kept_of_clients :
    let w : Wiring Wire Unit Unit Event := ⟨Wire.transport, Device.passive, fun _ _ => .done ()⟩
    let level : Value := { name := "level", description := "level of the tank",
                           flags := { writable := true }, contents := .scalar (.integer 5) }
    let e : Endpoint Wire Unit Unit Event := run w
      [.touch ⟨[level]⟩, .add .client "near" 0, .add .client "far" 0]
      { settings := {}, device := () }
    let past : List (Happening Wire Unit) :=
      [.hear 1 0 (Text.Utf8.encode "X level +="),
        .hear 2 0 (Text.Utf8.encode "X level += 99999999999\nX level - 1\nX level + high\n"),
        .deliver, .hear 1 0 (Text.Utf8.encode " 3\n")]
    e.Numbered ∧ e.values.tally? "level" = some (.integer, 5) ∧ SparesAll w "level" past e ∧
      (shiftsDuring w "level" past e).map Shift.answer = [some (-3), some 0, some (-3), some 0] ∧
      (run w past e).values.tally? "level" = some (.integer, 7) ∧
      ((run w past e).eventsOf 1).countP (Event.isSetOf "level") = 1 ∧
      (handed w 2 past e).countP (Event.isSetOf "level") = 1 := by
  intro w level e past
  have hn : e.Numbered := numbered_run w _ (numbered_new _ _)
  have hheld : e.values.tally? "level" = some (.integer, 5) := by decide +kernel
  have hspares : SparesAll w "level" past e := by
    simp only [past, SparesAll, Happening.Spares]
    decide +kernel
  obtain ⟨htally, -, -⟩ := changes_kept w (Device.leavesAlone_passive "level") hn hheld hspares
  have htotal :
      ((shiftsDuring w "level" past e).filter Shift.taken).map Shift.amount = [-1, 3] := by
    decide +kernel
  rw [htotal] at htally
  refine ⟨hn, hheld, hspares, by decide +kernel, htally, by decide +kernel, by decide +kernel⟩

end Endpoint

end Observatory
