import Observatory.Endpoint.Pass
import Observatory.Proofs.Publication.Told
/-!
# Delivery

Listeners act on connections only by queueing commands. What holds of every connection, and goes
on to hold when an ordinary command is taken in and when reports are collected, therefore holds
after a delivery too, whatever the listeners post and however deep it goes.

* `Connections.Keeps` — what no command of a kind can break; `Bus.kept_deliverAll` carries it
  through everything that listeners do.
* `Connection.Stable` — what a delivery cannot break of one connection.
* `Endpoint.every_deliver` — a delivery does not break it.
* `Endpoint.values_runDevice` — what a back end makes of the values in a pass.
-/

namespace Observatory

/-- What goes on to hold of a connection when an ordinary command is taken in and when what it has
to tell is collected. -/
structure Connection.Stable {τ : Type} (P : Connection τ → Prop) : Prop where
  queue : ∀ c command, command.IsOrdinary → P c → P (c.queueCommand false command).2
  emptied : ∀ c, P c → P (Endpoint.emptied c)
  taken : ∀ c : Connection τ, P c → P { c with events := [] }

namespace Connections

variable {τ : Type} {P : Connection τ → Prop}

/-- Something holds of every connection. -/
def Every (P : Connection τ → Prop) (t : Connections τ) : Prop := ∀ c ∈ t.items, P c

theorem mem_putFirst {c d : Connection τ} {ds : List (Connection τ)} (h : d ∈ putFirst c ds) :
    d = c ∨ d ∈ ds := by
  induction ds with
  | nil => cases h
  | cons e es ih =>
    unfold putFirst at h
    split at h
    · rcases List.mem_cons.1 h with rfl | h
      · exact .inl rfl
      · exact .inr (List.mem_cons_of_mem _ h)
    · rcases List.mem_cons.1 h with rfl | h
      · exact .inr List.mem_cons_self
      · exact (ih h).imp_right (List.mem_cons_of_mem _)

theorem Every.put {t : Connections τ} (h : t.Every P) {c : Connection τ} (hc : P c) :
    (t.put c).Every P := by
  intro d hd
  rcases mem_putFirst hd with rfl | hd
  · exact hc
  · exact h d hd

theorem Every.insert {t : Connections τ} (h : t.Every P) {c : Connection τ} (hc : P c) :
    (t.insert c).Every P := by
  intro d hd
  rcases List.mem_append.1 hd with hd | hd
  · exact h d hd
  · rw [List.mem_singleton.1 hd]
    exact hc

theorem Every.map {Q : Connection τ → Prop} {t : Connections τ} (h : t.Every P)
    {f : Connection τ → Connection τ} (hf : ∀ c, P c → Q (f c)) : (t.map f).Every Q := by
  intro d hd
  obtain ⟨c, hc, rfl⟩ := List.mem_map.1 hd
  exact hf c (h c hc)

theorem mem_of_get? {t : Connections τ} {id : ConnId} {c : Connection τ}
    (h : t.get? id = some c) : c ∈ t.items := List.mem_of_find?_eq_some h

variable (hP : Connection.Stable P)

include hP

theorem every_queueCommand {t : Connections τ} (h : t.Every P) (id : ConnId) {command : Command}
    (hcommand : command.IsOrdinary) : (t.queueCommand id command).2.Every P := by
  unfold queueCommand
  split
  · exact h
  · next c hc => exact h.put (hP.queue c command hcommand (h c (mem_of_get? hc)))

theorem every_queueCommandTo {t : Connections τ} (h : t.Every P) (name : String)
    {command : Command} (hcommand : command.IsOrdinary) :
    (t.queueCommandTo name command).2.Every P := by
  unfold queueCommandTo
  split
  · exact h
  · next c hc =>
    exact h.put (hP.queue c command hcommand (h c (List.mem_of_find?_eq_some hc)))

end Connections

/-! ## Listeners -/

/-- What goes on to hold of the connections of an endpoint when a command of a kind is queued. -/
structure Connections.Keeps {τ : Type} (Q : Command → Prop) (K : Connections τ → Prop) : Prop where
  queue : ∀ t id command, Q command → K t → K (t.queueCommand id command).2
  queueTo : ∀ t peer command, Q command → K t → K (t.queueCommandTo peer command).2

/-- What no command can break of any one connection. -/
theorem Connection.Stable.keeps {τ : Type} {P : Connection τ → Prop} (hP : Connection.Stable P) :
    Connections.Keeps Command.IsOrdinary (Connections.Every P) where
  queue := fun _ id _ hcommand h => Connections.every_queueCommand hP h id hcommand
  queueTo := fun _ peer _ hcommand h => Connections.every_queueCommandTo hP h peer hcommand

namespace Reaction

variable {τ η α : Type} {Q : Command → Prop} {K : Connections τ → Prop}

/-- Every command that is queued is of a kind. -/
def Orders (Q : Command → Prop) : Reaction τ η α → Prop
  | done _ => True
  | note _ next => next.Orders Q
  | post _ next => next.Orders Q
  | queue _ command next => Q command ∧ ∀ r, (next r).Orders Q
  | queueTo _ command next => Q command ∧ ∀ r, (next r).Orders Q
  | look next => ∀ t, (next t).Orders Q

/-- Every reaction orders commands of some kind. -/
theorem orders_any (r : Reaction τ η α) : r.Orders fun _ => True := by
  induction r with
  | done _ => trivial
  | note _ _ ih => exact ih
  | post _ _ ih => exact ih
  | queue _ _ _ ih => exact ⟨trivial, ih⟩
  | queueTo _ _ _ ih => exact ⟨trivial, ih⟩
  | look _ ih => exact ih

/-- **One reaction.** -/
theorem kept_run (hK : Connections.Keeps Q K) {r : Reaction τ η α} (hr : r.Orders Q)
    {t : Connections τ} (h : K t) : K (r.run t).connections := by
  induction r generalizing t with
  | done _ => exact h
  | note _ next ih => exact ih hr h
  | post _ next ih => exact ih hr h
  | queue id command next ih => exact ih _ (hr.2 _) (hK.queue t id command hr.1 h)
  | queueTo name command next ih => exact ih _ (hr.2 _) (hK.queueTo t name command hr.1 h)
  | look next ih => exact ih t (hr t) h

end Reaction

namespace Bus

variable {τ ℓ η : Type} {Q : Command → Prop} {K : Connections τ → Prop} {react : React τ ℓ η}

section
variable (hK : Connections.Keeps Q K) (hreact : ∀ listener e, (react listener e).Orders Q)

include hK hreact

theorem kept_tell (e : Event) (index : Nat) {s : Stage τ ℓ η} (h : K s.connections) :
    K (tell react e index s).2.connections := by
  unfold tell
  split
  · exact h
  · exact Reaction.kept_run hK (hreact _ e) h

/-- An event and all that it provokes. -/
theorem kept_deliverWithin (depth : Nat) (e : Event) {s : Stage τ ℓ η} (h : K s.connections) :
    K (deliverWithin react depth s e).connections := by
  induction depth generalizing s e with
  | zero => exact h
  | succ depth ih =>
    have hposted (posted : List Event) {s : Stage τ ℓ η} (h : K s.connections) :
        K (posted.foldl (deliverWithin react depth) s).connections := by
      induction posted generalizing s with
      | nil => exact h
      | cons e es ihposted => exact ihposted (ih e h)
    unfold deliverWithin
    generalize List.range s.listeners.length = indices
    induction indices generalizing s with
    | nil => exact h
    | cons index indices ihindices =>
      exact ihindices (hposted _ (kept_tell hK hreact e index h))

/-- Events, one after another. -/
theorem kept_deliverAll (events : List Event) {s : Stage τ ℓ η} (h : K s.connections) :
    K (events.foldl (deliver react) s).connections := by
  induction events generalizing s with
  | nil => exact h
  | cons e es ih => exact ih (kept_deliverWithin hK hreact maxDepth e h)

end

end Bus

/-! ## Endpoints -/

namespace Endpoint

variable {τ σ ℓ η : Type} {P : Connection τ → Prop}

theorem values_setStatus (mask bits : UInt32) (e : Endpoint τ σ ℓ η) :
    (e.setStatus mask bits).values = e.values := by
  unfold Endpoint.setStatus
  dsimp only
  split <;> rfl

theorem values_runDevice (w : Wiring τ σ ℓ η) (e : Endpoint τ σ ℓ η) :
    (e.runDevice w).values = (w.device.idle e.values e.device).1 := by
  unfold Endpoint.runDevice
  dsimp only
  split
  · exact values_setStatus _ _ _
  · rfl

/-- **A delivery** leaves the values alone and breaks nothing that is stable. -/
theorem every_deliver (hP : Connection.Stable P) {w : Wiring τ σ ℓ η}
    (hreact : ∀ listener e, (w.react listener e).Orders Command.IsOrdinary) {e : Endpoint τ σ ℓ η}
    (h : e.connections.Every P) :
    (e.deliver w).2.connections.Every P ∧ (e.deliver w).2.values = e.values := by
  refine ⟨?_, rfl⟩
  have hcollected : e.collect.connections.Every P := h.map hP.emptied
  have htaken : e.collect.connections.takeEvents.2.Every P := hcollected.map hP.taken
  exact Bus.kept_deliverAll hP.keeps hreact _ htaken

end Endpoint

end Observatory
