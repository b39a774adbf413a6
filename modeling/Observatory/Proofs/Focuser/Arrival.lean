import Mathlib.Logic.Function.Iterate
import Observatory.Connection.Wire
import Observatory.Daemon.Host
import Observatory.Proofs.Endpoint.StatusWord
import Observatory.Proofs.Focuser.Travel
/-!
# The focuser arrives

Whatever clients send, the focuser stays in its travel. Once they ask for nothing more, every pass
of the back end brings it one step nearer to its target, until it is there; from the next pass on
its status does not say any longer that it moves.

* `Focuser.holds_run` — where it is after so many passes, and `Focuser.toInt_iterate_advance` — how
  far that is.
* `Focuser.still_run` — it stays where it is to be.
* `Focuser.travels_and_arrives` — every run of the daemon.
-/

namespace Observatory

/-! ## The status in a pass of the back end -/

namespace Endpoint

variable {τ σ ℓ η : Type}

theorem status_setStatus (mask bits : UInt32) (e : Endpoint τ σ ℓ η) :
    (e.setStatus mask bits).status = e.status.update mask bits := by
  unfold setStatus
  dsimp only
  split
  · next hsame => exact hsame.symm
  · rfl

/-- The part of the status that the back end owns is what it says after its pass. -/
theorem status_runDevice {w : Wiring τ σ ℓ η} {e : Endpoint τ σ ℓ η} {mask bits : UInt32}
    (h : w.device.status (w.device.idle e.values e.device).2 = some (mask, bits)) :
    (e.runDevice w).status = e.status.update mask bits := by
  unfold runDevice
  dsimp only
  rw [h]
  exact status_setStatus _ _ _

end Endpoint

/-- The back end runs. -/
def Happening.isPass {τ ℓ : Type} : Happening τ ℓ → Bool
  | runDevice => true
  | _ => false

theorem Happening.eq_runDevice {τ ℓ : Type} {h : Happening τ ℓ} (hpass : h.isPass = true) :
    h = .runDevice := by
  cases h with
  | runDevice => rfl
  | _ => cases hpass

namespace Focuser

open Daemon (Host)
open Happening (run heardDuring)
open Number (Within nearestInt32)

variable {τ : Type}

/-- Nothing says that the focuser moves. -/
def Still (status : DeviceStatus) : Prop := status.bits &&& DeviceStatus.moving = 0

theorem still_update (status : DeviceStatus) : Still (status.update DeviceStatus.moveMask 0) := by
  have hmask : ~~~DeviceStatus.moveMask &&& DeviceStatus.moving = 0 := by decide
  unfold Still DeviceStatus.update
  rw [UInt32.zero_and, UInt32.or_zero, UInt32.and_assoc, hmask, UInt32.and_zero]

/-! ## The way -/

/-- How many passes the way from one place to another takes: its length in whole steps. -/
def passesTo (place target : Int32) : Nat := ((target.toInt - place.toInt).natAbs + 24) / 25

/-- On the way from one place to another, both ends included. -/
def Between (place here target : Int32) : Prop :=
  place.toInt ≤ here.toInt ∧ here.toInt ≤ target.toInt ∨
    target.toInt ≤ here.toInt ∧ here.toInt ≤ place.toInt

section

variable {p t : Int32}

/-- **One step** is short, and does not go past the target. -/
theorem between_advance (hp : InTravel p) (ht : InTravel t) :
    ((advance p t).toInt - p.toInt).natAbs ≤ 25 ∧ Between p (advance p t) t := by
  have hstep := toInt_advance hp ht
  have hsize : stepSize = 25 := rfl
  unfold Between
  constructor <;> omega

/-- **Several steps**: the way is covered, or as many steps of it as there were. -/
theorem toInt_iterate_advance (ht : InTravel t) (n : Nat) (hp : InTravel p) :
    ((fun place => advance place t)^[n] p).toInt =
      p.toInt + max (-(25 * n : Int)) (min (25 * n : Int) (t.toInt - p.toInt)) := by
  induction n generalizing p with
  | zero =>
    show p.toInt = _
    omega
  | succ n ih =>
    have hstep := toInt_advance hp ht
    have hsize : stepSize = 25 := rfl
    rw [Function.iterate_succ_apply, ih (inTravel_advance hp ht)]
    push_cast
    omega

/-- Enough steps lead to the target. -/
theorem iterate_advance_eq (hp : InTravel p) (ht : InTravel t) {n : Nat} (hn : passesTo p t ≤ n) :
    (fun place => advance place t)^[n] p = t := by
  have hwhole := toInt_iterate_advance ht n hp
  unfold passesTo at hn
  apply Int32.toInt_inj.1
  omega

/-- A step shortens the way by one pass. -/
theorem passesTo_advance (hp : InTravel p) (ht : InTravel t) :
    passesTo (advance p t) t = passesTo p t - 1 := by
  have hstep := toInt_advance hp ht
  have hsize : stepSize = 25 := rfl
  unfold passesTo
  omega

theorem eq_of_passesTo_eq_zero (h : passesTo p t = 0) : p = t := by
  unfold passesTo at h
  apply Int32.toInt_inj.1
  omega

end

/-! ## Runs in which nothing is asked for -/

/-- Nothing is asked for in a run, by clients or by the owner. -/
structure Unasked (T : Transport τ) (coming : List (Happening τ Unit)) (e : Host τ) : Prop where
  owner : ∀ h ∈ coming, h.isOwners = false
  clients : ∀ r ∈ heardDuring (Daemon.wiring T) coming e, r.isRequest = false

section

variable {T : Transport τ} {e : Host τ} {p : Int32} {x : Float} {h : Happening τ Unit}
  {hs coming : List (Happening τ Unit)}

theorem Unasked.tail (hquiet : Unasked T (h :: hs) e) :
    Unasked T hs (h.apply (Daemon.wiring T) e) :=
  ⟨fun k hk => hquiet.owner k (List.mem_cons_of_mem h hk),
    fun r hr => hquiet.clients r (List.mem_append_right _ hr)⟩

/-- Nothing but a pass moves the focuser or its target, or changes the status. -/
theorem Unasked.head (hquiet : Unasked T (h :: hs) e) (hpass : h.isPass = false)
    (hholds : Holds p x e.values) : Holds p x (h.apply (Daemon.wiring T) e).values ∧
      (h.apply (Daemon.wiring T) e).status = e.status := by
  have howner := hquiet.owner h List.mem_cons_self
  have hdevice : h ≠ .runDevice := by
    rintro rfl
    cases hpass
  constructor
  · refine Happening.kept_apply (P := fun own => Holds p x own.values) (fun t r hr ht => ?_)
      (fun own hown => hown.clearDirty) howner hdevice
      (fun r hr => hquiet.clients r (List.mem_append_left _ hr)) hholds
    rw [Connection.own_dispatch _ hr]
    exact ht
  · refine Happening.status_apply _ ?_ hdevice e
    rintro mask bits rfl
    cases howner

/-- One pass of the back end. -/
theorem holds_runDevice (T : Transport τ) (h : Holds p x e.values) :
    Holds (advance p (nearestInt32 x)) x (e.runDevice (Daemon.wiring T)).values := by
  rw [Endpoint.values_runDevice]
  exact (holds_idle e.device h).1

/-- A pass at the target leaves the focuser there, and it stands still. -/
theorem still_runDevice (T : Transport τ) (h : Holds p x e.values) (hthere : p = nearestInt32 x) :
    Holds p x (e.runDevice (Daemon.wiring T)).values ∧
      Still (e.runDevice (Daemon.wiring T)).status := by
  have hmoved := holds_runDevice T h
  rw [← hthere, advance_self] at hmoved
  have hmoving : (idle e.values e.device).2.moving = false := by
    rw [(holds_idle e.device h).2, hthere]
    simp
  have hstatus : (Daemon.wiring T).device.status
      ((Daemon.wiring T).device.idle e.values e.device).2 = some (DeviceStatus.moveMask, 0) := by
    show some (DeviceStatus.moveMask, if (idle e.values e.device).2.moving then _ else _) = _
    rw [hmoving, if_neg Bool.false_ne_true]
  refine ⟨hmoved, ?_⟩
  rw [Endpoint.status_runDevice hstatus]
  exact still_update e.status

/-- **Where the focuser is** after some passes. -/
theorem holds_run (hquiet : Unasked T coming e) (hholds : Holds p x e.values) :
    Holds ((fun place => advance place (nearestInt32 x))^[coming.countP Happening.isPass] p) x
      (run (Daemon.wiring T) coming e).values := by
  induction coming generalizing e p with
  | nil => exact hholds
  | cons h hs ih =>
    rw [Happening.run_cons]
    cases hpass : h.isPass with
    | true =>
      obtain rfl := Happening.eq_runDevice hpass
      rw [List.countP_cons_of_pos hpass, Function.iterate_succ_apply]
      exact ih hquiet.tail (holds_runDevice T hholds)
    | false =>
      rw [List.countP_cons_of_neg (by simp [hpass])]
      exact ih hquiet.tail (hquiet.head hpass hholds).1

/-- **At the target** the focuser stands still, and goes on to do so. -/
theorem still_run (hquiet : Unasked T coming e) (hholds : Holds p x e.values)
    (hthere : p = nearestInt32 x) (hstill : Still e.status) :
    Still (run (Daemon.wiring T) coming e).status := by
  induction coming generalizing e with
  | nil => exact hstill
  | cons h hs ih =>
    rw [Happening.run_cons]
    cases hpass : h.isPass with
    | true =>
      obtain rfl := Happening.eq_runDevice hpass
      obtain ⟨hstays, hstill'⟩ := still_runDevice T hholds hthere
      exact ih hquiet.tail hstays hstill'
    | false =>
      obtain ⟨hstays, hstatus⟩ := hquiet.head hpass hholds
      exact ih hquiet.tail hstays (hstatus ▸ hstill)

/-- **One pass more than the way takes** and the focuser stands still. The induction is on the run;
a pass takes one from what the way still takes, until it finds the focuser at its target. -/
theorem still_of_passesTo_lt (hquiet : Unasked T coming e) (hholds : Holds p x e.values)
    (hp : InTravel p) (ht : InTravel (nearestInt32 x))
    (hpasses : passesTo p (nearestInt32 x) < coming.countP Happening.isPass) :
    Still (run (Daemon.wiring T) coming e).status := by
  induction coming generalizing e p with
  | nil => cases hpasses
  | cons h hs ih =>
    rw [Happening.run_cons]
    cases hpass : h.isPass with
    | true =>
      obtain rfl := Happening.eq_runDevice hpass
      by_cases hthere : p = nearestInt32 x
      · obtain ⟨hstays, hstill⟩ := still_runDevice T hholds hthere
        exact still_run hquiet.tail hstays hthere hstill
      · have haway : passesTo p (nearestInt32 x) ≠ 0 := fun h => hthere (eq_of_passesTo_eq_zero h)
        have hshorter := passesTo_advance hp ht
        rw [List.countP_cons_of_pos hpass] at hpasses
        exact ih hquiet.tail (holds_runDevice T hholds) (inTravel_advance hp ht) (by omega)
    | false =>
      rw [List.countP_cons_of_neg (by simp [hpass])] at hpasses
      exact ih hquiet.tail (hquiet.head hpass hholds).1 hp hpasses

end

/-! ## Every run of the daemon -/

theorem inTravel_of_within {x : Float} (h : Within travel x) : InTravel (nearestInt32 x) :=
  Number.nearestInt32_within (by decide) (by decide) h

/-- **Whatever clients ask for**, the focuser stays on its travel. -/
theorem onTravel_run (T : Transport τ) {hs : List (Happening τ Unit)}
    (howner : ∀ h ∈ hs, h.isOwners = false) {e : Host τ} (h : OnTravel e.own) :
    OnTravel (run (Daemon.wiring T) hs e).own := by
  induction hs generalizing e with
  | nil => exact h
  | cons k ks ih =>
    rw [Happening.run_cons]
    refine ih (fun h hmem => howner h (List.mem_cons_of_mem k hmem)) ?_
    by_cases hdevice : k = .runDevice
    · subst hdevice
      obtain ⟨p, x, hholds, hp, hx⟩ := h
      exact ⟨_, x, holds_runDevice T hholds, inTravel_advance hp (inTravel_of_within hx), hx⟩
    · exact Happening.kept_apply (R := fun _ => True) (fun t r _ ht => onTravel_dispatch r ht)
        (fun _ => onTravel_swept) (howner k List.mem_cons_self) hdevice (fun _ _ => trivial) h

theorem onTravel_host (s : Settings) : OnTravel (Daemon.host s : Host τ).own := by
  refine ⟨0, 0.0, ⟨⟨_, rfl, rfl, rfl⟩, ⟨_, rfl, rfl⟩⟩, ⟨by decide, by decide⟩, ?_⟩
  exact isOutside_eq_false_iff.1 (by decide +kernel)

/-- **The focuser stays in its travel and arrives.** Clients connect to the daemon and send what
they like over any number of connections, whole passes and parts of them run, and the owner has no
hands on the values and on the status. Then the position is in the travel, no word overflows in a
step, and a pass makes at most one step and does not go past the rounded target. If nothing is asked
for any more, the target stays; the position is at it after as many passes as the way takes in whole
steps, and from the next pass on the status does not say that the focuser moves. -/
theorem travels_and_arrives (T : Transport τ) (s : Settings) {past : List (Happening τ Unit)}
    (hpast : ∀ h ∈ past, h.isOwners = false) :
    let w := Daemon.wiring T
    let e := run w past (Daemon.host s)
    ∃ p t : Int32, position? e.values = some p ∧ target? e.values = some t ∧
      (-5000 ≤ p.toInt ∧ p.toInt ≤ 5000) ∧ checkedAdvance p t = some (advance p t) ∧
      (∀ now exits, ∃ q, position? (e.idle w now exits).values = some q ∧
        (q.toInt - p.toInt).natAbs ≤ 25 ∧ Between p q t) ∧
      ∀ coming : List (Happening τ Unit), (∀ h ∈ coming, h.isOwners = false) →
        (∀ r ∈ heardDuring w coming e, r.isRequest = false) →
        let passes := coming.countP Happening.isPass
        let e' := run w coming e
        ∃ q, position? e'.values = some q ∧ target? e'.values = some t ∧
          q.toInt = p.toInt + max (-(25 * passes : Int)) (min (25 * passes : Int)
            (t.toInt - p.toInt)) ∧
          (passesTo p t ≤ passes → q = t) ∧
          (passesTo p t < passes → e'.status.bits &&& DeviceStatus.moving = 0) := by
  intro w e
  obtain ⟨p, x, hholds, hp, hx⟩ := onTravel_run T hpast (onTravel_host s)
  have ht := inTravel_of_within hx
  refine ⟨p, nearestInt32 x, hholds.position?_eq, hholds.target?_eq, hp, checkedAdvance_eq hp ht,
    fun now exits => ?_, fun coming hcoming hasks => ?_⟩
  · -- what is done after a pass runs the back end once, and nothing else in it is heard
    have hquiet : Unasked T
        [.reap exits, .watch now, .runDevice, .broadcastDirty, .deliver, .drop] e :=
      ⟨by simp [Happening.isOwners], by simp [heardDuring, Happening.heard, Happening.frames]⟩
    have hidle := holds_run hquiet hholds
    rw [← Endpoint.run_idle] at hidle
    exact ⟨_, hidle.position?_eq, between_advance hp ht⟩
  · have hquiet : Unasked T coming e := ⟨hcoming, hasks⟩
    have hrun := holds_run hquiet hholds
    exact ⟨_, hrun.position?_eq, hrun.target?_eq, toInt_iterate_advance ht _ hp,
      iterate_advance_eq hp ht, still_of_passesTo_lt hquiet hholds hp ht⟩

/-- A client sets a target, and one step is made before it falls silent. Then the way takes two more
passes, and the third one finds the focuser at its target. -/
theorem travels_and_arrives_at_sixty :
    let w := Daemon.wiring Wire.transport
    let past : List (Happening Wire Unit) := [.add .client "ui" 0,
      .hear 1 0 (Text.Utf8.encode "FOC_TAR 9000\nX FOC_TAR + 60.4\n"), .deliver, .runDevice]
    let coming : List (Happening Wire Unit) :=
      [.runDevice, .hear 1 1 (Text.Utf8.encode "T ready\n"), .runDevice, .runDevice]
    let e := run w past (Daemon.host {})
    position? e.values = some 25 ∧ target? e.values = some 60 ∧ passesTo 25 60 = 2 ∧
      position? (run w coming e).values = some 60 ∧
      (run w coming e).status.bits &&& DeviceStatus.moving = 0 := by
  intro w past coming e
  have hpast : ∀ h ∈ past, h.isOwners = false := by decide +kernel
  obtain ⟨p, t, hp, ht, -, -, -, harrives⟩ := travels_and_arrives Wire.transport {} hpast
  have hplace : position? e.values = some 25 := by decide +kernel
  have hgoal : target? e.values = some 60 := by decide +kernel
  obtain rfl : p = 25 := Option.some.inj (hp.symm.trans hplace)
  obtain rfl : t = 60 := Option.some.inj (ht.symm.trans hgoal)
  obtain ⟨q, hq, -, -, hthere, hstill⟩ := harrives coming (by decide +kernel) (by decide +kernel)
  obtain rfl : q = 60 := hthere (by decide +kernel)
  dsimp only [w, e] at hplace hgoal ⊢
  exact ⟨hplace, hgoal, by decide, hq, hstill (by decide +kernel)⟩

end Focuser

end Observatory
