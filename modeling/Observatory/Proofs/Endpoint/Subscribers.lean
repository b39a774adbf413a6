import Observatory.Connection.Wire
import Observatory.Proofs.Endpoint.Delivery
import Observatory.Proofs.Publication.Current
/-!
# Subscribers are up to date

Values change in many ways: owners touch them, peers ask for changes, the back end refreshes them.
Each way leaves a mark, and marks are taken off only where every marked value is pushed to every
subscriber. So after each pass the last line about a value that a subscriber was sent is what the
value holds now.

* `Endpoint.Moves` — what every operation keeps, of the endpoint and of the connections it dropped.
* `History.Step.kept` — one thing that happens.
* `subscribers_current` — every run.
-/

namespace Observatory

namespace Connection

variable {τ : Type}

theorem informs_inMemory (values : Registry) (id : ConnId) (kind : PeerKind) (name : String)
    (now : Instant) : Informs values (inMemory id kind name now : Connection τ) where
  helper := rfl
  modest := by simp [IsModest, inMemory, new, CommandQueue.pending]
  whole := rfl
  tells := ⟨fun _ _ => rfl, by simp [inMemory, new]⟩

/-- What acts that tell nothing of values cannot break, a delivery cannot break. -/
theorem stable_of_hush {P : Connection τ → Prop} (hmodest : ∀ c, P c → c.IsModest)
    (hP : ∀ c d, P c → Hush c d → P d) : Stable P where
  queue := fun c _ hcommand h => hP c _ h (hush_queueCommand hcommand false (hmodest c h))
  emptied := fun c h => by
    refine hP c _ h (.of_same rfl rfl rfl rfl (fun hnone => ?_) (hmodest c h))
    simp [Endpoint.emptied, hnone]
  taken := fun c h => hP c _ h (.of_same rfl rfl rfl rfl (fun h => h) (hmodest c h))

theorem stable_informs (values : Registry) : Stable (Informs values : Connection τ → Prop) :=
  stable_of_hush (fun _ h => h.modest) fun _ _ h hd => h.hush hd

/-- A subscriber was told of a value. -/
def Knows (name : String) (c : Connection τ) : Prop :=
  Endpoint.isSubscriber c = true → name ∈ c.announced

theorem stable_knows (values : Registry) (name : String) :
    Stable (fun c : Connection τ => c.Informs values ∧ c.Knows name) := by
  refine stable_of_hush (fun _ h => h.1.modest) fun c d h hd => ⟨h.1.hush hd, fun hsub => ?_⟩
  rw [hd.announced]
  exact h.2 (hd.subscriber hsub)

/-- Every subscriber that a broadcast reaches is told of every marked value. -/
theorem knows_broadcastDirty {values : Registry} {v : Value} (hv : v ∈ values.values)
    (hdirty : v.dirty = true) (c : Connection τ) : (c.broadcastDirty values).Knows v.name := by
  unfold Connection.broadcastDirty
  split
  · intro _
    rw [foldl_sendValue_eq]
    exact Value.mem_published.2 (.inr ⟨v, List.mem_filter.2 ⟨hv, hdirty⟩, rfl⟩)
  · next hno => exact fun hsub => absurd hsub hno

end Connection

namespace Endpoint

variable {τ σ ℓ η : Type}

/-- The names of the values are all different, and every peer is informed. -/
structure Informed (e : Endpoint τ σ ℓ η) : Prop where
  distinct : e.values.Distinct
  every : e.connections.Every (Connection.Informs e.values)

/-- What an operation keeps: every peer is informed, and so are connections that are no longer
among those of the endpoint and were no subscribers. -/
structure Moves (e e' : Endpoint τ σ ℓ η) : Prop where
  informed : e'.Informed
  others : ∀ c : Connection τ, isSubscriber c = false →
    c.Informs e.values → c.Informs e'.values

theorem Moves.trans {e e' e'' : Endpoint τ σ ℓ η} (h : Moves e e') (h' : Moves e' e'') :
    Moves e e'' :=
  ⟨h'.informed, fun c hsub hc => h'.others c hsub (h.others c hsub hc)⟩

theorem Informed.refl {e : Endpoint τ σ ℓ η} (h : e.Informed) : e.Moves e :=
  ⟨h, fun _ _ hc => hc⟩

/-- The connections change, and the values do not. -/
theorem Informed.moves {e e' : Endpoint τ σ ℓ η} (h : e.Informed) (hvalues : e'.values = e.values)
    (hevery : e'.connections.Every (Connection.Informs e.values)) : e.Moves e' := by
  refine ⟨⟨?_, ?_⟩, fun c _ hc => ?_⟩
  · rw [hvalues]
    exact h.distinct
  · rw [hvalues]
    exact hevery
  · rw [hvalues]
    exact hc

/-- The values change and leave marks, and the connections do not. -/
theorem Informed.reaches {e e' : Endpoint τ σ ℓ η} (h : e.Informed)
    (hvalues : e.values.Reaches e'.values) (hconns : e'.connections = e.connections) :
    e.Moves e' := by
  obtain ⟨hdistinct, hevolves⟩ := hvalues.keeps h.distinct
  refine ⟨⟨hdistinct, fun c hc => ?_⟩, fun c _ hc => hc.evolve hevolves⟩
  rw [hconns] at hc
  exact (h.every c hc).evolve hevolves

theorem Informed.onConnections {e : Endpoint τ σ ℓ η} (h : e.Informed)
    {f : Connection τ → Connection τ} (hf : ∀ c, c.Informs e.values → (f c).Informs e.values) :
    e.Moves (e.onConnections f) :=
  h.moves rfl (h.every.map hf)

theorem Informed.deliver {w : Wiring τ σ ℓ η}
    (hreact : ∀ listener e, (w.react listener e).Orders Command.IsOrdinary) {e : Endpoint τ σ ℓ η}
    (h : e.Informed) : e.Moves (e.deliver w).2 :=
  h.moves rfl (every_deliver (Connection.stable_informs e.values) hreact h.every).1

/-! ## Operations -/

/-- A subscriber that is taken in is sent the status. -/
theorem Informed.addConnection {e : Endpoint τ σ ℓ η} (h : e.Informed) (id : ConnId)
    (kind : PeerKind) (name : String) (now : Instant) :
    e.Moves (e.addConnection (.inMemory id kind name now)).2 := by
  refine h.moves rfl (h.every.insert ?_)
  have hnew : (Connection.inMemory id kind name now : Connection τ).Informs e.values :=
    Connection.informs_inMemory e.values id kind name now
  have hset : (configure e.settings (.inMemory id kind name now : Connection τ)).Informs
      e.values := by
    unfold configure
    dsimp only
    split <;> exact hnew.hush (.of_same rfl rfl rfl rfl (fun h => h) hnew.modest)
  split
  · exact hset.hush (Connection.hush_send (r := .status e.status.bits) trivial rfl hset.modest)
  · exact hset

theorem Informed.setStatus {e : Endpoint τ σ ℓ η} (h : e.Informed) (mask bits : UInt32) :
    e.Moves (e.setStatus mask bits) := by
  unfold Endpoint.setStatus
  dsimp only
  split
  · exact h.refl
  · refine h.moves rfl (h.every.map fun c hc => ?_)
    dsimp only
    split
    · exact hc.hush (Connection.hush_send (r := .status _) trivial rfl hc.modest)
    · exact hc

/-- Pushing all values to every subscriber takes the marks off. -/
theorem Informed.infoAll {e : Endpoint τ σ ℓ η} (h : e.Informed) : e.Moves e.infoAll := by
  refine ⟨⟨h.distinct.clearDirty, h.every.map fun c hc => ?_⟩,
    fun c hsub hc => hc.clearDirty h.distinct hsub⟩
  dsimp only
  split
  · exact hc.publish h.distinct (fun v hv => hv) fun _ v hv _ => hv
  · next hno => exact hc.clearDirty h.distinct (by simpa using hno)

/-- Nothing is left to be published. -/
def IsClean (e : Endpoint τ σ ℓ η) : Prop := ∀ v ∈ e.values.values, v.dirty = false

/-- Every subscriber is told of every marked value. -/
def Publishes (values : Registry) (e : Endpoint τ σ ℓ η) : Prop :=
  ∀ v ∈ values.values, v.dirty = true → e.connections.Every (Connection.Knows v.name)

/-- **The broadcast** at the end of a pass leaves no mark and keeps every peer informed. -/
theorem Informed.broadcastDirty {e : Endpoint τ σ ℓ η} (h : e.Informed) :
    e.Moves e.broadcastDirty ∧ e.broadcastDirty.IsClean ∧
      e.broadcastDirty.Publishes e.values := by
  unfold Endpoint.broadcastDirty
  split
  · refine ⟨⟨⟨h.distinct.clearDirty, h.every.map fun c hc => hc.broadcastDirty h.distinct⟩,
      fun c hsub hc => hc.clearDirty h.distinct hsub⟩, fun v hv => ?_, fun v hv hdirty => ?_⟩
    · obtain ⟨u, -, rfl⟩ := List.mem_map.1 hv
      rfl
    · exact h.every.map fun c _ => Connection.knows_broadcastDirty hv hdirty c
  · next hnone =>
    have hclean (v : Value) (hv : v ∈ e.values.values) : v.dirty ≠ true :=
      fun hdirty => hnone (List.any_eq_true.2 ⟨v, hv, hdirty⟩)
    exact ⟨h.refl, fun v hv => by simpa using hclean v hv,
      fun v hv hdirty => absurd hdirty (hclean v hv)⟩

theorem Informed.receive {w : Wiring τ σ ℓ η} (hdev : w.device.IsFair)
    (hreact : ∀ listener e, (w.react listener e).Orders Command.IsOrdinary) {e e' : Endpoint τ σ ℓ η}
    (h : e.Informed) {id : ConnId} {now : Instant} {bytes : Bytes}
    (hreceive : e.receive w id now bytes = .ok e') : e.Moves e' := by
  unfold Endpoint.receive at hreceive
  split at hreceive
  · cases hreceive
  · next c hc =>
    have hkeeps := Connection.keeps_receive hdev now bytes (t := ⟨c, ⟨e.values, e.device⟩⟩)
      h.distinct (h.every c (Connections.mem_of_get? hc))
    generalize Connection.receive w.device now bytes ⟨c, ⟨e.values, e.device⟩⟩ = t
      at hreceive hkeeps
    cases hreceive
    have htaken : e.Moves { e with
        connections := e.connections.put t.conn
        values := t.own.values
        device := t.own.device } := by
      refine ⟨⟨hkeeps.distinct, ?_⟩, fun d _ hd => hd.evolve hkeeps.evolves⟩
      exact Connections.Every.put (fun d hd => (h.every d hd).evolve hkeeps.evolves) hkeeps.informs
    exact htaken.trans (htaken.informed.deliver hreact)

theorem Informed.close {w : Wiring τ σ ℓ η}
    (hreact : ∀ listener e, (w.react listener e).Orders Command.IsOrdinary) {e e' : Endpoint τ σ ℓ η}
    (h : e.Informed) {id : ConnId} (hclose : e.close w id = .ok e') : e.Moves e' := by
  unfold Endpoint.close at hclose
  split at hclose
  · cases hclose
  · next c hc =>
    cases hclose
    have hinforms := h.every c (Connections.mem_of_get? hc)
    have hasked : e.Moves { e with connections := e.connections.put (c.close .requested) } :=
      h.moves rfl (h.every.put (hinforms.hush (Connection.hush_close _ hinforms.modest)))
    exact hasked.trans (hasked.informed.deliver hreact)

/-! ## The end of a pass -/

/-- What is done at the end of a pass before closed connections are dropped. -/
def settle (w : Wiring τ σ ℓ η) (now : Instant) (exits : Pid → Option ChildExit)
    (e : Endpoint τ σ ℓ η) : Endpoint τ σ ℓ η :=
  ((((e.reap exits).onConnections (Connection.idle now)).runDevice w).broadcastDirty.deliver w).2

/-- The connections that are dropped at the end of a pass. -/
def leaving (w : Wiring τ σ ℓ η) (now : Instant) (exits : Pid → Option ChildExit)
    (e : Endpoint τ σ ℓ η) : List (Connection τ) :=
  (e.settle w now exits).connections.removeClosed.1

theorem Informed.reap {e : Endpoint τ σ ℓ η} (h : e.Informed) (exits : Pid → Option ChildExit) :
    e.Moves (e.reap exits) := by
  refine h.moves rfl (Connections.Every.map (P := Connection.Informs e.values) ?_
    (Connection.stable_informs e.values).emptied)
  refine h.every.map fun c hc => ?_
  unfold reapOne
  rw [hc.helper]
  exact hc

theorem Informed.runDevice {w : Wiring τ σ ℓ η} (hdev : w.device.IsFair) {e : Endpoint τ σ ℓ η}
    (h : e.Informed) : e.Moves (e.runDevice w) := by
  have hidle : e.Moves { e with
      values := (w.device.idle e.values e.device).1
      device := (w.device.idle e.values e.device).2 } :=
    h.reaches (hdev.idle e.values e.device) rfl
  unfold Endpoint.runDevice
  dsimp only
  split
  · exact hidle.trans (hidle.informed.setStatus _ _)
  · exact hidle

/-- A mark outlasts what leaves marks. -/
theorem Publishes.of_evolves {values values' : Registry} (hdistinct : values.Distinct)
    (hevolves : values.Evolves values') {e : Endpoint τ σ ℓ η} (h : e.Publishes values') :
    e.Publishes values := by
  intro v hv hdirty
  obtain ⟨u, hu, hprofile, hmark⟩ := hevolves v.name v (hdistinct.get?_of_mem hv)
  obtain ⟨hmem, hname⟩ := Registry.mem_of_get? hu
  rw [← hname]
  refine h u hmem ?_
  rcases hmark with hmark | rfl
  · exact hmark
  · exact hdirty

theorem Publishes.deliver {w : Wiring τ σ ℓ η}
    (hreact : ∀ listener e, (w.react listener e).Orders Command.IsOrdinary) {values : Registry}
    {e : Endpoint τ σ ℓ η} (h : e.Publishes values) (he : e.Informed) :
    (e.deliver w).2.Publishes values := by
  intro v hv hdirty c hc
  have hboth : e.connections.Every fun c => c.Informs e.values ∧ c.Knows v.name :=
    fun c hc => ⟨he.every c hc, h v hv hdirty c hc⟩
  exact ((every_deliver (Connection.stable_knows e.values v.name) hreact hboth).1 c hc).2

theorem Informed.settle {w : Wiring τ σ ℓ η} (hdev : w.device.IsFair)
    (hreact : ∀ listener e, (w.react listener e).Orders Command.IsOrdinary) {e : Endpoint τ σ ℓ η}
    (h : e.Informed) (now : Instant) (exits : Pid → Option ChildExit) :
    e.Moves (e.settle w now exits) ∧ (e.settle w now exits).IsClean ∧
      (e.settle w now exits).Publishes e.values := by
  have hreap := h.reap exits
  have htimers := hreap.informed.onConnections (f := Connection.idle now) fun c hc =>
    hc.hush (Connection.hush_idle now hc.helper hc.modest)
  have hdevice := htimers.informed.runDevice hdev
  obtain ⟨hbroadcast, hclean, hpublishes⟩ := hdevice.informed.broadcastDirty
  have hdeliver := hbroadcast.informed.deliver hreact
  refine ⟨hreap.trans (htimers.trans (hdevice.trans (hbroadcast.trans hdeliver))), hclean,
    Publishes.deliver hreact ?_ hbroadcast.informed⟩
  rw [values_runDevice] at hpublishes
  exact hpublishes.of_evolves h.distinct ((hdev.idle e.values e.device).keeps h.distinct).2

/-- **The end of a pass** leaves no mark, tells every subscriber of every marked value and keeps
every peer informed, those that it drops too. -/
theorem Informed.idle {w : Wiring τ σ ℓ η} (hdev : w.device.IsFair)
    (hreact : ∀ listener e, (w.react listener e).Orders Command.IsOrdinary) {e : Endpoint τ σ ℓ η}
    (h : e.Informed) (now : Instant) (exits : Pid → Option ChildExit) :
    e.Moves (e.idle w now exits) ∧ (e.idle w now exits).IsClean ∧
      (e.idle w now exits).Publishes e.values ∧
      ∀ c ∈ e.leaving w now exits, isSubscriber c = false ∧
        c.Informs (e.idle w now exits).values := by
  obtain ⟨hsettle, hclean, hpublishes⟩ := h.settle hdev hreact now exits
  have hdrop : (e.settle w now exits).Moves (e.idle w now exits) :=
    hsettle.informed.moves rfl fun c hc => hsettle.informed.every c (List.mem_of_mem_filter hc)
  refine ⟨hsettle.trans hdrop, hclean,
    fun v hv hdirty c hc => hpublishes v hv hdirty c (List.mem_of_mem_filter hc), fun c hc => ?_⟩
  obtain ⟨hmem, hspent⟩ := List.mem_filter.1 hc
  refine ⟨?_, hsettle.informed.every c hmem⟩
  simp only [Connections.isSpent, Connection.isClosed, Bool.and_eq_true, beq_iff_eq] at hspent
  simp [isSubscriber, Connection.isEstablished, hspent.1]

end Endpoint

/-! ## Runs -/

/-- An endpoint in the course of a run, and the connections that it dropped. -/
structure History (τ σ ℓ η : Type) where
  endpoint : Endpoint τ σ ℓ η
  dropped : List (Connection τ) := []

namespace History

variable {τ σ ℓ η : Type}

/-- One thing that happens. -/
inductive Step (w : Wiring τ σ ℓ η) : History τ σ ℓ η → History τ σ ℓ η → Prop
  /-- The owner makes a value, or changes one in place. -/
  | touch {h : History τ σ ℓ η} {values : Registry} (hvalues : h.endpoint.values.Touch values) :
    Step w h { h with endpoint := { h.endpoint with values } }
  | listen {h : History τ σ ℓ η} (listener : ℓ) :
    Step w h { h with endpoint := h.endpoint.addListener listener }
  /-- The owner takes a number for a connection. -/
  | number {h : History τ σ ℓ η} : Step w h { h with
      endpoint := { h.endpoint with connections := h.endpoint.connections.allocate.2 } }
  | add {h : History τ σ ℓ η} (id : ConnId) (kind : PeerKind) (name : String) (now : Instant) :
    Step w h { h with
      endpoint := (h.endpoint.addConnection (.inMemory id kind name now)).2 }
  | receive {h : History τ σ ℓ η} {id : ConnId} {now : Instant} {bytes : Bytes}
    {e : Endpoint τ σ ℓ η} (he : h.endpoint.receive w id now bytes = .ok e) :
    Step w h { h with endpoint := e }
  | infoAll {h : History τ σ ℓ η} : Step w h { h with endpoint := h.endpoint.infoAll }
  | setStatus {h : History τ σ ℓ η} (mask bits : UInt32) :
    Step w h { h with endpoint := h.endpoint.setStatus mask bits }
  | postEvent {h : History τ σ ℓ η} (event : Event) :
    Step w h { h with endpoint := h.endpoint.postEvent w event }
  | close {h : History τ σ ℓ η} {id : ConnId} {e : Endpoint τ σ ℓ η}
    (he : h.endpoint.close w id = .ok e) : Step w h { h with endpoint := e }
  | idle {h : History τ σ ℓ η} (now : Instant) (exits : Pid → Option ChildExit) :
    Step w h { h with
      endpoint := h.endpoint.idle w now exits
      dropped := h.dropped ++ h.endpoint.leaving w now exits }

/-- Every connection that there ever was. -/
def connections (h : History τ σ ℓ η) : List (Connection τ) :=
  h.endpoint.connections.items ++ h.dropped

/-- Every peer is informed. -/
structure Kept (h : History τ σ ℓ η) : Prop where
  informed : h.endpoint.Informed
  dropped : ∀ c ∈ h.dropped, Endpoint.isSubscriber c = false ∧ c.Informs h.endpoint.values

theorem Kept.moves {h : History τ σ ℓ η} (hkept : Kept h) {e : Endpoint τ σ ℓ η}
    (he : h.endpoint.Moves e) : Kept { h with endpoint := e } :=
  ⟨he.informed, fun c hc =>
    ⟨(hkept.dropped c hc).1, he.others c (hkept.dropped c hc).1 (hkept.dropped c hc).2⟩⟩

section
variable {w : Wiring τ σ ℓ η} (hdev : w.device.IsFair)
  (hreact : ∀ listener e, (w.react listener e).Orders Command.IsOrdinary)

include hdev hreact

/-- **One thing that happens** keeps every peer informed. -/
theorem Step.kept {h h' : History τ σ ℓ η} (hstep : Step w h h') (hkept : Kept h) : Kept h' := by
  have hinformed := hkept.informed
  cases hstep with
  | touch hvalues => exact hkept.moves (hinformed.reaches (.single hvalues) rfl)
  | listen listener => exact hkept.moves (hinformed.moves rfl hinformed.every)
  | number => exact hkept.moves (hinformed.moves rfl hinformed.every)
  | add id kind name now => exact hkept.moves (hinformed.addConnection id kind name now)
  | receive he => exact hkept.moves (hinformed.receive hdev hreact he)
  | infoAll => exact hkept.moves hinformed.infoAll
  | setStatus mask bits => exact hkept.moves (hinformed.setStatus mask bits)
  | postEvent event =>
    have hposted : h.endpoint.Moves
        { h.endpoint with pending := h.endpoint.pending ++ [event] } :=
      hinformed.moves rfl hinformed.every
    exact hkept.moves (hposted.trans (hposted.informed.deliver hreact))
  | close he => exact hkept.moves (hinformed.close hreact he)
  | idle now exits =>
    obtain ⟨hmoves, -, -, hleaving⟩ := hinformed.idle hdev hreact now exits
    refine ⟨hmoves.informed, fun c hc => ?_⟩
    rcases List.mem_append.1 hc with hc | hc
    · exact (hkept.moves hmoves).dropped c hc
    · exact hleaving c hc

/-- **Every run** keeps every peer informed. -/
theorem kept_of_run {settings : Settings} {device : σ} {listeners : List ℓ}
    {h : History τ σ ℓ η}
    (hrun : Relation.ReflTransGen (Step w) { endpoint := { settings, device, listeners } } h) :
    Kept h := by
  induction hrun with
  | refl => exact ⟨⟨Registry.distinct_empty, by simp [Connections.Every]⟩, by simp⟩
  | tail _ hstep ih => exact hstep.kept hdev hreact ih

end

end History

/-! ## Up to date -/

/-- A peer was told nothing of a value, or first what it is, once, and then what it holds. -/
structure Connection.Heralds {τ : Type} (values : Registry) (c : Connection τ) : Prop where
  unknown : ∀ name, name ∉ c.announced → c.told name = []
  known : ∀ name ∈ c.announced, ∃ v, values.get? name = some v ∧ ∃ texts : List String,
    texts ≠ [] ∧ c.told name =
      recordLines (v.metaRecords ++ texts.map (Record.value name))

theorem Connection.Informs.heralds {τ : Type} {values : Registry} {c : Connection τ}
    (h : Informs values c) : c.Heralds values := by
  refine ⟨h.tells.unknown, fun name hname => ?_⟩
  obtain ⟨v, hv, texts, last, hlines, -⟩ := h.tells.known name hname
  exact ⟨v, hv, texts ++ [last], by simp, hlines⟩

/-- Nothing is left to be published, and the last line about a value that a subscriber was sent
is what the value holds. -/
structure Endpoint.IsCurrent {τ σ ℓ η : Type} (e : Endpoint τ σ ℓ η) : Prop where
  clean : e.IsClean
  latest : ∀ c ∈ e.connections.items, isSubscriber c = true → ∀ name ∈ c.announced,
    ∃ v, e.values.get? name = some v ∧
      (c.told name).getLast? = some (lineBytes v.record.encode)

theorem Endpoint.Informed.isCurrent {τ σ ℓ η : Type} {e : Endpoint τ σ ℓ η} (h : e.Informed)
    (hclean : e.IsClean) : e.IsCurrent := by
  refine ⟨hclean, fun c hc hsub name hname => ?_⟩
  obtain ⟨v, hv, texts, last, hlines, hlast⟩ := (h.every c hc).tells.known name hname
  obtain ⟨hmem, hsame⟩ := Registry.mem_of_get? hv
  obtain rfl := hlast ⟨hsub, hclean v hmem⟩
  refine ⟨v, hv, ?_⟩
  rw [hlines, recordLines, List.map_append, List.map_append, List.map_append, ← List.append_assoc,
    ← hsame]
  exact List.getLast?_concat

/-- **Subscribers are up to date.** However values, connections, bytes, events and passes come
about, each peer is told once what a value is, in front of its first push, and at the end of a
pass every subscriber knows the values that carried a mark, and holds those it knows as they are. -/
theorem subscribers_current {τ σ ℓ η : Type} {w : Wiring τ σ ℓ η} (hdev : w.device.IsFair)
    (hreact : ∀ listener e, (w.react listener e).Orders Command.IsOrdinary) {settings : Settings} {device : σ}
    {listeners : List ℓ} {h : History τ σ ℓ η}
    (hrun : Relation.ReflTransGen (History.Step w)
      { endpoint := { settings, device, listeners } } h) :
    (∀ c ∈ h.connections, c.Heralds h.endpoint.values) ∧
      ∀ now exits, (h.endpoint.idle w now exits).IsCurrent ∧
        (h.endpoint.idle w now exits).Publishes h.endpoint.values := by
  have hkept := History.kept_of_run hdev hreact hrun
  refine ⟨fun c hc => ?_, fun now exits => ?_⟩
  · rcases List.mem_append.1 hc with hc | hc
    · exact (hkept.informed.every c hc).heralds
    · exact (hkept.dropped c hc).2.heralds
  · obtain ⟨hmoves, hclean, hpublishes, -⟩ := hkept.informed.idle hdev hreact now exits
    exact ⟨hmoves.informed.isCurrent hclean, hpublishes⟩

theorem Device.isFair_passive : Device.passive.IsFair :=
  ⟨fun _ _ => .refl, fun _ _ _ _ => .refl, fun _ _ => .refl⟩

/-- A value that changes after a client was told of it. -/
theorem subscribers_current_of_change :
    ∃ (w : Wiring Wire Unit Unit Unit) (h : History Wire Unit Unit Unit),
      Relation.ReflTransGen (History.Step w)
        { endpoint := { settings := {}, device := (), listeners := [()] } } h ∧
      h.endpoint.values.hasDirty = true ∧
      h.connections.map (fun c => (Endpoint.isSubscriber c, c.announced)) = [(true, ["level"])] ∧
      (∀ c ∈ h.connections, c.Heralds h.endpoint.values) ∧
      ∀ now exits, (h.endpoint.idle w now exits).IsCurrent ∧
        (h.endpoint.idle w now exits).Publishes h.endpoint.values := by
  let w : Wiring Wire Unit Unit Unit := ⟨Wire.transport, Device.passive, fun _ _ => .done ()⟩
  let v : Value :=
    { name := "level", description := "level of the tank", contents := .scalar (.integer 1) }
  have hcreate : History.Step w
      { endpoint := { settings := {}, device := (), listeners := [()] } } _ :=
    .touch (.create (v := v) rfl)
  have hadd := (Relation.ReflTransGen.single hcreate).tail (.add 1 .client "peer" 0)
  have hpass := hadd.tail (.idle 0 fun _ => none)
  have hrun := hpass.tail (.touch (.change (m := .set "2") rfl
    (show Registry.update "level" _ _ = .ok _ from rfl)))
  refine ⟨w, _, hrun, rfl, ?_, subscribers_current (w := w) Device.isFair_passive
    (fun _ _ => trivial) hrun⟩
  decide +kernel

end Observatory
