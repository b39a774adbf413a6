import Observatory.Proofs.Endpoint.Lent
/-!
# Where copies come from

The copies that a connection keeps of its peer's values change when a record of the peer is handled,
and at no other moment: not when commands are queued, when something is written, when time goes on
or when children come and go. So what every record of some kind keeps of them holds at the end of a
whole run in which only such records are handled, for every connection.

* `Connection.replicas_idle` and others, `Happening.Treats.replicas` — where nothing is heard.
* `Endpoint.copies_readEach` — a pass of reading.
* `Happening.copies_apply`, `Happening.copies_run` — one thing that happens, and a run.
-/

namespace Observatory

namespace Connection

variable {τ σ : Type}

/-! ## Dealings that leave the copies alone -/

theorem replicas_close (reason : CloseReason) (c : Connection τ) :
    (c.close reason).replicas = c.replicas := by
  unfold close
  split
  · rfl
  · split <;> rfl
  · split <;> rfl

theorem replicas_queueCommand (urgent : Bool) (command : Command) (c : Connection τ) :
    (c.queueCommand urgent command).2.replicas = c.replicas := by
  unfold queueCommand
  split
  · rfl
  · dsimp only
    split
    · rfl
    · exact replicas_pump _

theorem Queues.replicas {Q : Command → Prop} {c d : Connection τ} (h : Queues Q c d) :
    d.replicas = c.replicas := by
  induction h with
  | refl => rfl
  | tail _ hlast ih =>
    obtain ⟨command, -, rfl⟩ := hlast
    exact (replicas_queueCommand false command _).trans ih

theorem replicas_broadcastDirty (values : Registry) (c : Connection τ) :
    (c.broadcastDirty values).replicas = c.replicas := by
  unfold broadcastDirty
  split
  · exact replicas_sendValues _ c
  · rfl

theorem replicas_writePass (T : Transport τ) (c : Connection τ) :
    (c.writePass T).2.replicas = c.replicas :=
  writePass_induct (P := fun d => d.replicas = c.replicas) (fun _ _ h => h) (fun _ _ h => h)
    (fun _ _ h => h) T rfl

theorem replicas_watchSilence (now : Instant) (timeout : Duration) (c : Connection τ) :
    (c.watchSilence now timeout).replicas = c.replicas := by
  unfold watchSilence
  dsimp only
  split_ifs <;> rfl

theorem replicas_idleEstablished (now : Instant) (c : Connection τ) :
    (c.idleEstablished now).replicas = c.replicas := by
  unfold idleEstablished
  dsimp only
  split
  · split
    · exact replicas_pump c
    · exact (replicas_watchSilence now _ _).trans (replicas_pump c)
  · rfl

theorem replicas_idle (now : Instant) (c : Connection τ) :
    (c.idle now).replicas = c.replicas := by
  unfold idle killOverdue
  dsimp only
  split
  · split
    · split <;> rfl
    · exact replicas_idleEstablished now c
  · exact replicas_idleEstablished now c

theorem replicas_childReturned (exit : ChildExit) (c : Connection τ) :
    (c.childReturned exit).replicas = c.replicas := by
  unfold childReturned
  dsimp only
  split
  · rfl
  · split <;> split <;> rfl

end Connection

open Connection (recordOf?)

namespace Endpoint

variable {τ σ ℓ η : Type} {w : Wiring τ σ ℓ η}

theorem replicas_announceTo (old new : DeviceStatus) (c : Connection τ) :
    (announceTo old new c).replicas = c.replicas := by
  unfold announceTo
  split
  · rfl
  · split <;> rfl

theorem replicas_reapOne (exits : Pid → Option ChildExit) (c : Connection τ) :
    (reapOne exits c).replicas = c.replicas := by
  rcases reapOne_cases exits c with ⟨-, exit, -, -, hreap⟩ | ⟨-, hreap⟩
  · rw [hreap]
    exact Connection.replicas_childReturned exit c
  · rw [hreap]

theorem replicas_writeOne (w : Wiring τ σ ℓ η) (c : Connection τ) :
    (writeOne w c).2.replicas = c.replicas := by
  unfold writeOne
  split
  · exact Connection.replicas_writePass w.transport c
  · rfl

theorem replicas_welcome (e : Endpoint τ σ ℓ η) (c : Connection τ) :
    (e.welcome c).replicas = c.replicas := by
  unfold welcome configure
  dsimp only
  split <;> split <;> rfl

theorem copies_readEach {R : Record → Prop} {Q : List (String × Replica) → Prop}
    (hkeep : ∀ (t : Turn τ σ) (r : Record), R r → Q t.conn.replicas →
      Q (Connection.dispatch w.device r t).1.conn.replicas)
    (p : Pass τ) {items : List (Connection τ)} {own : Local σ}
    (hr : ∀ r ∈ (heardEach w p items own).filterMap recordOf?, R r)
    (h : ∀ c ∈ items, Q c.replicas) : ∀ d ∈ (readEach w p items own).2.1, Q d.replicas := by
  induction items generalizing own with
  | nil => simp [readEach]
  | cons c rest ih =>
    unfold heardEach at hr
    rw [List.filterMap_append] at hr
    intro d hd
    rcases List.mem_cons.1 hd with rfl | hd
    · exact kept_readOne (P := fun t => Q t.conn.replicas) hkeep (fun _ _ hd h => by rwa [hd]) p
        (fun r hmem => hr r (List.mem_append_left _ hmem)) (h c List.mem_cons_self)
    · exact ih (fun r hmem => hr r (List.mem_append_right _ hmem))
        (fun c hc => h c (List.mem_cons_of_mem _ hc)) d hd

end Endpoint

namespace Happening

variable {τ σ ℓ η : Type} {w : Wiring τ σ ℓ η} {e : Endpoint τ σ ℓ η}

/-- **Where nothing is heard** the copies stay as they are. -/
theorem Treats.replicas {C : Command → Prop} {h : Happening τ ℓ} (hdeaf : h.isHearing = false)
    {c d : Connection τ} (htreats : h.Treats w C e c d) : d.replicas = c.replicas := by
  cases h with
  | hear conn now bytes => cases hdeaf
  | read p => cases hdeaf
  | queue conn command =>
    subst htreats
    split
    · exact Connection.replicas_queueCommand _ _ c
    · rfl
  | queueTo peer command =>
    rcases htreats with rfl | rfl
    · rfl
    · exact Connection.replicas_queueCommand _ _ c
  | askClose conn =>
    subst htreats
    split
    · exact Connection.replicas_close _ c
    · rfl
  | askCloseAll =>
    subst htreats
    exact Connection.replicas_close _ c
  | setStatus mask bits =>
    subst htreats
    exact Endpoint.replicas_announceTo _ _ c
  | infoAll =>
    subst htreats
    split
    · exact Connection.replicas_sendValues _ c
    · rfl
  | message sec usec severity text =>
    subst htreats
    split <;> rfl
  | write =>
    subst htreats
    exact Endpoint.replicas_writeOne w c
  | deliver =>
    have hqueues : Connection.Queues C { Endpoint.emptied c with events := [] } d := htreats
    exact hqueues.replicas
  | drop => rw [htreats.1]
  | reap exits =>
    subst htreats
    exact Endpoint.replicas_reapOne exits c
  | watch now =>
    subst htreats
    exact Connection.replicas_idle now c
  | runDevice =>
    subst htreats
    exact Endpoint.replicas_announceTo _ _ c
  | broadcastDirty =>
    subst htreats
    split
    · exact Connection.replicas_broadcastDirty _ c
    · rfl
  | takeOutput conn =>
    subst htreats
    split <;> rfl
  | _ =>
    subst htreats
    rfl

theorem replicas_of_newcomer {h : Happening τ ℓ} {c : Connection τ} (hc : h.newcomer? e = some c) :
    c.replicas = [] := by
  rcases newcomer_cases hc with ⟨_, _, _, rfl⟩ | ⟨_, _, _, _, rfl⟩ | ⟨_, _, _, _, rfl⟩ |
    ⟨_, _, _, _, rfl⟩ <;> rfl

section

variable {R : Record → Prop} {Q : List (String × Replica) → Prop}
  (hkeep : ∀ (t : Turn τ σ) (r : Record), R r → Q t.conn.replicas →
    Q (Connection.dispatch w.device r t).1.conn.replicas)
  (hnil : Q [])

include hkeep hnil

/-- **One thing that happens.** A connection that comes has no copies, and the others keep what the
records that are heard keep. -/
theorem copies_apply (hn : e.Numbered) {h : Happening τ ℓ} (hr : ∀ r ∈ h.heard w e, R r)
    (hq : ∀ c ∈ e.connections.items, Q c.replicas) :
    ∀ d ∈ (h.apply w e).connections.items, Q d.replicas := by
  intro d hd
  by_cases hread : ∃ p, h = .read p
  · obtain ⟨p, rfl⟩ := hread
    exact Endpoint.copies_readEach hkeep p hr hq d hd
  rcases origin (Q := fun _ => True) (fun _ _ => Reaction.orders_any _) hn hd with
    ⟨c, hc, htreats⟩ | ⟨c, hnew, rfl⟩
  · cases hhears : h.isHearing with
    | false =>
      rw [htreats.replicas hhears]
      exact hq c hc
    | true =>
      cases h with
      | hear conn now bytes =>
        have hd' : d = if c.id = conn then (e.heard w now bytes c).conn else c := htreats
        by_cases hid : c.id = conn
        · subst hid
          rw [hd', if_pos rfl]
          simp only [heard, frames, hn.connection?_of_mem hc] at hr
          exact Connection.kept_receive (P := fun t => Q t.conn.replicas) hkeep
            (fun _ _ hd h => by rwa [hd]) now hr (hq c hc)
        · rw [hd', if_neg hid]
          exact hq c hc
      | read p => exact absurd ⟨p, rfl⟩ hread
      | _ => cases hhears
  · rw [Endpoint.replicas_welcome, replicas_of_newcomer hnew]
    exact hnil

/-- **A run.** The connections of its end keep what the records that are handled during it keep. -/
theorem copies_run (hn : e.Numbered) {hs : List (Happening τ ℓ)}
    (hr : ∀ r ∈ heardDuring w hs e, R r) (hq : ∀ c ∈ e.connections.items, Q c.replicas) :
    ∀ d ∈ (run w hs e).connections.items, Q d.replicas := by
  induction hs generalizing e with
  | nil => exact hq
  | cons h hs ih =>
    refine ih (numbered_apply w hn h) (fun r hmem => hr r (List.mem_append_right _ hmem)) ?_
    exact copies_apply hkeep hnil hn (fun r hmem => hr r (List.mem_append_left _ hmem)) hq

end

end Happening

end Observatory
