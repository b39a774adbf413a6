import Mathlib.Data.List.Forall2
import Observatory.Connection.Wire
import Observatory.Proofs.Connection.Acts
import Observatory.Proofs.Endpoint.Delivery
import Observatory.Proofs.Value.Registry
/-!
# Write protection

What peers send cannot make or remove a value, rename it or give it another type, and it changes the
data of a value only through a request that names it, if the value is one that peers may write. That
holds of every line that arrives, however malformed, on whatever connection, and whatever else
happens in between, as long as the back end keeps its hands off the values.

* `Registry.Guarded` — the values before and after, one by one.
* `Connection.guarded_processFrame` — one frame.
* `Endpoint.Hears.guarded` — one thing that happens to an endpoint.
* `Endpoint.values_protected` — every run.
-/

namespace Observatory

open Framing (Frame)

/-! ## Guarded values -/

/-- The value is announced as before, and it holds what it held unless peers may write it and one of
them asked to. -/
structure Value.Guarded (asked : String → Prop) (v w : Value) : Prop where
  profile : w.profile = v.profile
  contents : w.contents ≠ v.contents → v.flags.writable = true ∧ asked v.name

namespace Value.Guarded

variable {asked asked' : String → Prop} {u v w : Value}

theorem refl (asked : String → Prop) (v : Value) : v.Guarded asked v :=
  ⟨rfl, fun hne => absurd rfl hne⟩

theorem mono (h : v.Guarded asked w) (hmore : ∀ name, asked name → asked' name) :
    v.Guarded asked' w :=
  ⟨h.profile, fun hne => (h.contents hne).imp_right (hmore v.name)⟩

theorem trans (h : u.Guarded asked v) (h' : v.Guarded asked w) : u.Guarded asked w := by
  refine ⟨h'.profile.trans h.profile, fun hne => ?_⟩
  by_cases hfirst : v.contents = u.contents
  · have hsecond := h'.contents (by rw [hfirst]; exact hne)
    have hname : v.name = u.name := congrArg Profile.name h.profile
    have hflags : v.flags = u.flags := congrArg Profile.flags h.profile
    rw [hname, hflags] at hsecond
    exact hsecond
  · exact h.contents hfirst

end Value.Guarded

namespace Registry

/-- The values are the same ones, in the same order, and each of them is guarded. -/
def Guarded (asked : String → Prop) (r s : Registry) : Prop :=
  List.Forall₂ (Value.Guarded asked) r.values s.values

namespace Guarded

variable {asked asked' : String → Prop} {r s t : Registry}

theorem refl (asked : String → Prop) (r : Registry) : r.Guarded asked r :=
  List.forall₂_same.2 fun v _ => .refl asked v

theorem mono (h : r.Guarded asked s) (hmore : ∀ name, asked name → asked' name) :
    r.Guarded asked' s :=
  List.Forall₂.imp (fun _ _ hv => hv.mono hmore) h

theorem trans (h : r.Guarded asked s) (h' : s.Guarded asked t) : r.Guarded asked t := by
  unfold Guarded at h h' ⊢
  generalize r.values = us, s.values = vs, t.values = ws at h h' ⊢
  induction h generalizing ws with
  | nil => exact h'
  | cons hv _ ih =>
    cases h' with
    | cons hw hws => exact .cons (hv.trans hw) (ih _ hws)

/-- Nothing is announced in another way. -/
theorem profiles_eq (h : r.Guarded asked s) : s.profiles = r.profiles := by
  unfold Guarded at h
  unfold profiles
  generalize r.values = vs, s.values = ws at h ⊢
  induction h with
  | nil => rfl
  | cons hv _ ih => rw [List.map_cons, List.map_cons, hv.profile, ih]

theorem distinct (h : r.Guarded asked s) (hr : r.Distinct) : s.Distinct := by
  unfold Distinct
  rw [h.profiles_eq]
  exact hr

end Guarded

theorem guarded_put {asked : String → Prop} {r : Registry} {name : String} {v w : Value}
    (hv : r.get? name = some v) (h : v.Guarded asked w) : r.Guarded asked (r.put name w) := by
  unfold get? at hv
  show List.Forall₂ _ r.values (replaceFirst name w r.values)
  generalize r.values = vs at hv ⊢
  induction vs with
  | nil => cases hv
  | cons u us ih =>
    unfold replaceFirst
    rw [List.find?_cons] at hv
    cases hu : u.name == name with
    | true =>
      rw [hu] at hv
      cases hv
      rw [if_pos rfl]
      exact .cons h (List.forall₂_same.2 fun x _ => .refl asked x)
    | false =>
      rw [hu] at hv
      rw [if_neg Bool.false_ne_true]
      exact .cons (.refl asked u) (ih hv)

/-- Taking the marks off changes no data. -/
theorem guarded_clearDirty (asked : String → Prop) (r : Registry) :
    r.Guarded asked r.clearDirty := by
  refine List.forall₂_map_right_iff.2 (List.forall₂_same.2 fun v _ => ⟨rfl, fun hne => ?_⟩)
  exact absurd rfl hne

end Registry

/-! ## Requests -/

/-- The record asks to change the named value, in full or in short. -/
def Record.Assigns (name : String) : Record → Prop
  | set n _ _ => n = name
  | command opcode _ => opcode = name ∧ opcode ≠ "info"
  | _ => False

/-- One of the frames asks to change the named value. -/
def Asked (frames : List Frame) (name : String) : Prop :=
  ∃ frame ∈ frames, ∃ r ∈ Connection.recordOf? frame, r.Assigns name

theorem Registry.Guarded.append {a b : List Frame} {r s t : Registry}
    (h : r.Guarded (Asked a) s) (h' : s.Guarded (Asked b) t) : r.Guarded (Asked (a ++ b)) t := by
  refine (h.mono fun name hasked => ?_).trans (h'.mono fun name hasked => ?_)
  · obtain ⟨frame, hframe, hr⟩ := hasked
    exact ⟨frame, List.mem_append_left b hframe, hr⟩
  · obtain ⟨frame, hframe, hr⟩ := hasked
    exact ⟨frame, List.mem_append_right a hframe, hr⟩

/-- A back end that changes no value by itself. -/
structure Device.IsHandsOff {σ : Type} (dev : Device σ) : Prop where
  info : ∀ values s, (dev.info values s).2.1 = values
  command : ∀ opcode params values s, (dev.command opcode params values s).2.1 = values
  idle : ∀ values s, (dev.idle values s).1 = values

theorem Device.isHandsOff_passive : Device.passive.IsHandsOff :=
  ⟨fun _ _ => rfl, fun _ _ _ _ => rfl, fun _ _ => rfl⟩

namespace Connection

variable {τ σ : Type} {dev : Device σ}

/-- A request changes the value that it names, if peers may write that. -/
theorem guarded_receiveSet (dev : Device σ) (name : String) (op : Operator) (text : String)
    (t : Turn τ σ) : t.own.values.Guarded (fun n => name = n)
      (receiveSet dev name op text t).1.own.values := by
  unfold receiveSet
  dsimp only
  split
  · exact .refl _ _
  · next current hcurrent =>
    split
    · exact .refl _ _
    · next hwritable =>
      split
      · exact .refl _ _
      · exact .refl _ _
      · next updated happly =>
        split
        · exact .refl _ _
        · refine Registry.guarded_put hcurrent ⟨?_, fun _ => ⟨?_, ?_⟩⟩
          · exact (Value.becomes_of_applyText True happly).1.profile
          · simpa using hwritable
          · exact (Registry.mem_of_get? hcurrent).2.symm

theorem values_receiveInfo (hdev : dev.IsHandsOff) (t : Turn τ σ) :
    (receiveInfo dev t).own.values = t.own.values := by
  unfold receiveInfo
  dsimp only
  split <;> exact hdev.info t.own.values t.own.device

theorem guarded_receiveCommand (hdev : dev.IsHandsOff) (opcode params : String) (t : Turn τ σ) :
    t.own.values.Guarded (fun n => opcode = n ∧ opcode ≠ "info")
      (receiveCommand dev opcode params t).1.own.values := by
  unfold receiveCommand
  split
  · rw [values_receiveInfo hdev]
    exact .refl _ _
  · next hinfo =>
    split
    · exact (guarded_receiveSet dev opcode .assign params t).mono fun n hn => ⟨hn, hinfo⟩
    · have hsame := hdev.command opcode params t.own.values t.own.device
      dsimp only
      split
      all_goals
        show Registry.Guarded _ _ (dev.command opcode params t.own.values t.own.device).2.1
        rw [hsame]
        exact .refl _ _

/-- **One record** changes no value but the one that it asks to change. -/
theorem guarded_dispatch (hdev : dev.IsHandsOff) (r : Record) (t : Turn τ σ) :
    t.own.values.Guarded (fun n => r.Assigns n) (dispatch dev r t).1.own.values := by
  cases r with
  | set name op text => exact guarded_receiveSet dev name op text t
  | command opcode params => exact guarded_receiveCommand hdev opcode params t
  | _ => exact .refl _ _

/-- **One frame.** A line that cannot be read changes nothing at all. -/
theorem guarded_processFrame (hdev : dev.IsHandsOff) (frame : Frame) (t : Turn τ σ) :
    t.own.values.Guarded (Asked [frame]) (processFrame dev t frame).own.values := by
  cases hclosed : t.conn.isClosed with
  | true =>
    unfold processFrame
    rw [if_pos hclosed]
    exact .refl _ _
  | false =>
    cases frame with
    | error e =>
      rw [processFrame_error dev hclosed]
      exact .refl _ _
    | ok line =>
      rw [processFrame_ok dev hclosed]
      cases hparse : Record.parse line with
      | error e =>
        rcases processLine_error dev t hparse with h | h
        · rw [h]
          exact .refl _ _
        · rw [h]
          exact .refl _ _
      | ok r =>
        have hguarded := guarded_dispatch hdev r t
        have hframe : r ∈ recordOf? (.ok line) := by simp [recordOf?, hparse, Except.toOption]
        rw [processLine_ok dev t hparse]
        generalize dispatch dev r t = p at hguarded ⊢
        obtain ⟨t', complaint⟩ := p
        have hasked : t.own.values.Guarded (Asked [.ok line]) t'.own.values :=
          hguarded.mono fun n hn => ⟨.ok line, List.mem_singleton_self _, r, hframe, hn⟩
        cases complaint with
        | none => exact hasked
        | some e => exact hasked

theorem guarded_frames (hdev : dev.IsHandsOff) (frames : List Frame) (t : Turn τ σ) :
    t.own.values.Guarded (Asked frames) (frames.foldl (processFrame dev) t).own.values := by
  induction frames generalizing t with
  | nil => exact .refl _ _
  | cons frame frames ih => exact (guarded_processFrame hdev frame t).append (ih _)

/-- Bytes of a peer. -/
theorem guarded_receive (hdev : dev.IsHandsOff) (now : Instant) (bytes : Bytes) (t : Turn τ σ) :
    t.own.values.Guarded (Asked (t.conn.input.push bytes).1)
      (receive dev now bytes t).own.values :=
  guarded_frames hdev _ (t.onConn fun c => { c with
    lastActivity := now, lastKeepalive := none, input := (t.conn.input.push bytes).2 })

/-! ## Reading from a stream -/

/-- The frames that are completed by what is read from a stream. -/
def heardFor (T : Transport τ) (dev : Device σ) (now : Instant) : Nat → Turn τ σ → List Frame
  | 0, _ => []
  | readings + 1, t =>
    match t.conn.wantsRead, t.conn.link with
    | true, .stream s =>
      let (answer, s) := T.read readChunk s
      let t := t.onConn fun c => { c with link := .stream s }
      match answer with
      | .data (b :: bs) =>
        (t.conn.input.push (b :: bs)).1 ++ heardFor T dev now readings (receive dev now (b :: bs) t)
      | _ => []
    | _, _ => []

/-- Reading goes on for as long as bytes are there, so the induction is on the readings left. -/
theorem guarded_readFor (hdev : dev.IsHandsOff) (T : Transport τ) (now : Instant) (readings : Nat)
    (moved : Bool) (t : Turn τ σ) : t.own.values.Guarded (Asked (heardFor T dev now readings t))
      (readFor T dev now readings moved t).2.own.values := by
  induction readings generalizing moved t with
  | zero => exact .refl _ _
  | succ readings ih =>
    unfold readFor heardFor
    cases hwants : t.conn.wantsRead with
    | false => exact .refl _ _
    | true =>
      cases hlink : t.conn.link with
      | detached => exact .refl _ _
      | connecting address => exact .refl _ _
      | stream s =>
        cases hread : T.read readChunk s with
        | mk answer next =>
          simp only [hread]
          cases answer with
          | data bytes =>
            cases bytes with
            | nil => exact .refl _ _
            | cons b bs =>
              exact (guarded_receive hdev now (b :: bs)
                (t.onConn fun c => { c with link := .stream next })).append (ih true _)
          | _ => exact .refl _ _

end Connection

namespace Endpoint

variable {τ σ ℓ η : Type} {w : Wiring τ σ ℓ η}

/-! ## Passes -/

/-- The frames that one connection hears in a pass. -/
def heardOne (w : Wiring τ σ ℓ η) (p : Pass τ) (t : Turn τ σ) : List Frame :=
  let conn := (t.conn.pollConnect (p.connects t.conn.id) p.now).2
  match conn.link with
  | .stream s =>
    Connection.heardFor w.transport w.device p.now (w.transport.readings s + 1) { t with conn }
  | _ => []

/-- The frames that all of them hear, one connection after another. -/
def heardEach (w : Wiring τ σ ℓ η) (p : Pass τ) : List (Connection τ) → Local σ → List Frame
  | [], _ => []
  | c :: rest, own =>
    heardOne w p ⟨c, own⟩ ++ heardEach w p rest (readOne w p ⟨c, own⟩).2.own

/-- The frames that an endpoint hears in a pass. -/
def heardIn (w : Wiring τ σ ℓ η) (p : Pass τ) (e : Endpoint τ σ ℓ η) : List Frame :=
  heardEach w p (p.arrivals.foldl (accept p.now) e).connections.items ⟨e.values, e.device⟩

theorem guarded_readOne (hdev : w.device.IsHandsOff) (p : Pass τ) (t : Turn τ σ) :
    t.own.values.Guarded (Asked (heardOne w p t)) (readOne w p t).2.own.values := by
  unfold heardOne readOne Connection.readPass
  dsimp only
  cases hlink : (t.conn.pollConnect (p.connects t.conn.id) p.now).2.link with
  | detached => exact .refl _ _
  | connecting address => exact .refl _ _
  | stream s => exact Connection.guarded_readFor hdev w.transport p.now _ false _

theorem guarded_readEach (hdev : w.device.IsHandsOff) (p : Pass τ) (items : List (Connection τ))
    (own : Local σ) : own.values.Guarded (Asked (heardEach w p items own))
      (readEach w p items own).2.2.values := by
  induction items generalizing own with
  | nil => exact .refl _ _
  | cons c rest ih => exact (guarded_readOne hdev p ⟨c, own⟩).append (ih _)

theorem own_accept (now : Instant) (arrivals : List (String × τ)) (e : Endpoint τ σ ℓ η) :
    (arrivals.foldl (accept now) e).values = e.values ∧
      (arrivals.foldl (accept now) e).device = e.device := by
  induction arrivals generalizing e with
  | nil => exact ⟨rfl, rfl⟩
  | cons arrival rest ih => exact ih (accept now e arrival)

/-- **One pass over all connections.** -/
theorem guarded_poll (hdev : w.device.IsHandsOff) (p : Pass τ) (e : Endpoint τ σ ℓ η) :
    e.values.Guarded (Asked (e.heardIn w p)) (e.poll w p).2.values := by
  obtain ⟨hvalues, hdevice⟩ := own_accept p.now p.arrivals e
  have hread := guarded_readEach hdev p
    (p.arrivals.foldl (accept p.now) e).connections.items ⟨e.values, e.device⟩
  have hpoll : (e.poll w p).2.values =
      (readEach w p (p.arrivals.foldl (accept p.now) e).connections.items
        ⟨e.values, e.device⟩).2.2.values := by
    rw [← hvalues, ← hdevice]
    rfl
  rw [hpoll]
  exact hread

theorem guarded_broadcastDirty (asked : String → Prop) (e : Endpoint τ σ ℓ η) :
    e.values.Guarded asked e.broadcastDirty.values := by
  unfold Endpoint.broadcastDirty
  split
  · exact Registry.guarded_clearDirty asked e.values
  · exact .refl _ _

/-- **The end of a pass** takes marks off and changes no data. -/
theorem guarded_idle (hdev : w.device.IsHandsOff) (now : Instant) (exits : Pid → Option ChildExit)
    (e : Endpoint τ σ ℓ η) : e.values.Guarded (Asked []) (e.idle w now exits).values := by
  have hdevice : (((e.reap exits).onConnections (Connection.idle now)).runDevice w).values =
      e.values := (values_runDevice w _).trans (hdev.idle _ _)
  rw [← hdevice]
  exact guarded_broadcastDirty (Asked []) _

/-! ## Runs -/

/-- One thing that happens to an endpoint, and the frames that it hears by it. -/
inductive Hears (w : Wiring τ σ ℓ η) : Endpoint τ σ ℓ η → List Frame → Endpoint τ σ ℓ η → Prop
  /-- Connections come and go, commands are queued, events are posted: everything that leaves the
  values alone. -/
  | aside {e e' : Endpoint τ σ ℓ η} (hvalues : e'.values = e.values) : Hears w e [] e'
  | receive {e e' : Endpoint τ σ ℓ η} {id : ConnId} {c : Connection τ} {now : Instant}
    {bytes : Bytes} (hc : e.connection? id = some c) (he : e.receive w id now bytes = .ok e') :
    Hears w e (c.input.push bytes).1 e'
  | poll {e : Endpoint τ σ ℓ η} (p : Pass τ) : Hears w e (e.heardIn w p) (e.poll w p).2
  | idle {e : Endpoint τ σ ℓ η} (now : Instant) (exits : Pid → Option ChildExit) :
    Hears w e [] (e.idle w now exits)

/-- One thing after another. -/
inductive HearsAll (w : Wiring τ σ ℓ η) : Endpoint τ σ ℓ η → List Frame → Endpoint τ σ ℓ η → Prop
  | nil {e : Endpoint τ σ ℓ η} : HearsAll w e [] e
  | cons {e d e' : Endpoint τ σ ℓ η} {frames more : List Frame} (h : Hears w e frames d)
    (ht : HearsAll w d more e') : HearsAll w e (frames ++ more) e'

/-- An endpoint that was made, whose owner makes values and changes them between the passes. -/
inductive IsOwned (w : Wiring τ σ ℓ η) : Endpoint τ σ ℓ η → Prop
  | new (settings : Settings) (device : σ) (listeners : List ℓ) :
    IsOwned w { settings, device, listeners }
  | touch {e : Endpoint τ σ ℓ η} {values : Registry} (h : IsOwned w e)
    (hvalues : e.values.Touch values) : IsOwned w { e with values }
  | hear {e e' : Endpoint τ σ ℓ η} {frames : List Frame} (h : IsOwned w e)
    (hhear : Hears w e frames e') : IsOwned w e'

/-- A whole pass is one of reading and writing, and the end of one. -/
theorem hearsAll_tick (w : Wiring τ σ ℓ η) (p : Pass τ) (e : Endpoint τ σ ℓ η) :
    HearsAll w e (e.heardIn w p) (e.tick w p) := by
  have hdrop : Hears w (e.poll w p).2 [] ((e.poll w p).2.removeClosed w) := .aside rfl
  have hend : HearsAll w ((e.poll w p).2.removeClosed w) ([] ++ []) (e.tick w p) :=
    .cons (.idle p.now p.exits) .nil
  have hwhole := HearsAll.cons (.poll p) (.cons hdrop hend)
  simpa using hwhole

section
variable (hdev : w.device.IsHandsOff)

include hdev

/-- **One thing that happens** changes no value but those that a frame asks to change. -/
theorem Hears.guarded {e e' : Endpoint τ σ ℓ η} {frames : List Frame} (h : Hears w e frames e') :
    e.values.Guarded (Asked frames) e'.values := by
  cases h with
  | aside hvalues =>
    rw [hvalues]
    exact .refl _ _
  | poll p => exact guarded_poll hdev p e
  | idle now exits => exact guarded_idle hdev now exits e
  | @receive _ id c now bytes hc he =>
    have hguarded := Connection.guarded_receive hdev now bytes ⟨c, ⟨e.values, e.device⟩⟩
    unfold Endpoint.receive at he
    rw [hc] at he
    cases he
    exact hguarded

theorem HearsAll.guarded {e e' : Endpoint τ σ ℓ η} {frames : List Frame}
    (h : HearsAll w e frames e') : e.values.Guarded (Asked frames) e'.values := by
  induction h with
  | nil => exact .refl _ _
  | cons hfirst _ ih => exact (hfirst.guarded hdev).append ih

/-- The names of the values are all different. -/
theorem IsOwned.distinct {e : Endpoint τ σ ℓ η} (h : IsOwned w e) : e.values.Distinct := by
  induction h with
  | new settings device listeners => exact Registry.distinct_empty
  | touch _ hvalues ih => exact (hvalues.keeps ih).1
  | hear _ hhear ih => exact (hhear.guarded hdev).distinct ih

/-- **Write protection.** Whatever peers send, in lines or not, on however many connections of
whatever kind, and whatever else happens in between: the values stay the same ones in the same
order, their names stay all different, each is announced as before, and none holds anything new
but a writable one that a line asked to change. The same goes for a whole pass behind the run. -/
theorem values_protected {e e' : Endpoint τ σ ℓ η} {frames : List Frame} (howned : IsOwned w e)
    (hrun : HearsAll w e frames e') :
    e'.values.values.map Value.name = e.values.values.map Value.name ∧
      (e'.values.values.map Value.name).Nodup ∧ e.values.Guarded (Asked frames) e'.values ∧
      ∀ p : Pass τ, e'.values.Guarded (Asked (e'.heardIn w p)) (e'.tick w p).values := by
  have hguarded := hrun.guarded hdev
  have hdistinct : e'.values.Distinct := hguarded.distinct (howned.distinct hdev)
  refine ⟨?_, ?_, hguarded, fun p => (hearsAll_tick w p e').guarded hdev⟩
  · rw [← Registry.map_name_profiles, ← Registry.map_name_profiles, hguarded.profiles_eq]
  · rw [← Registry.map_name_profiles]
    exact hdistinct

end

/-- A client sets a value that it may write, and tries in vain to set one that it may not. -/
theorem values_protected_of_set :
    ∃ (w : Wiring Wire Unit Unit Unit) (e e' : Endpoint Wire Unit Unit Unit) (frames : List Frame),
      IsOwned w e ∧ HearsAll w e frames e' ∧
      e.values.values.map Value.text = ["1", "7"] ∧ e'.values.values.map Value.text = ["5", "7"] ∧
      e'.values.values.map Value.name = e.values.values.map Value.name ∧
      (e'.values.values.map Value.name).Nodup ∧ e.values.Guarded (Asked frames) e'.values := by
  let w : Wiring Wire Unit Unit Unit := ⟨Wire.transport, Device.passive, fun _ _ => .done ()⟩
  let level : Value := { name := "level", description := "level of the tank",
                         flags := { writable := true }, contents := .scalar (.integer 1) }
  let serial : Value :=
    { name := "serial", description := "number of the tank", contents := .scalar (.integer 7) }
  let e : Endpoint Wire Unit Unit Unit := {
    settings := {}, device := (), listeners := [()],
    values := ⟨[level.markDirty, serial.markDirty]⟩ }
  have hnew : IsOwned w { settings := {}, device := (), listeners := [()] } := .new _ _ _
  have howned : IsOwned w e :=
    (hnew.touch (.create (v := level) rfl)).touch (.create (v := serial) rfl)
  let peered := (e.addConnection (.inMemory 1 .client "ui" 0)).2
  have hpeered : Hears w e [] peered := .aside rfl
  have hconn : peered.connection? 1 = some _ := rfl
  have hgot : peered.receive w 1 0 (Text.Utf8.encode "level 5\nX serial = 9\n") = .ok _ := rfl
  have hrun := HearsAll.cons hpeered
    (.cons (Hears.receive hconn hgot) (.cons (.idle 1 fun _ => none) .nil))
  refine ⟨w, e, _, _, howned, hrun, by decide +kernel, by decide +kernel, ?_⟩
  obtain ⟨hnames, hnodup, hguarded, -⟩ :=
    values_protected Device.isHandsOff_passive howned hrun
  exact ⟨hnames, hnodup, hguarded⟩

end Endpoint

end Observatory
