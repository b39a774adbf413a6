import Mathlib.Logic.Relation
import Observatory.Proofs.Connection.Owner
import Observatory.Proofs.Value.Registry
/-!
# Publishing values

An endpoint creates values, changes them in place and sends them to one peer, one at a time, all
of them or the changed ones. What the peer is sent is determined by the values that are sent, in
their order: each is announced once, in front of its first push.

* `Publisher.Step` — one thing that the endpoint does.
* `Publisher.Kept` — what has been written, and that a name always stands for one profile.
-/

namespace Observatory

namespace Value

/-- The records that push values in turn to a peer that knows the given names. -/
def publish (names : List String) : List Value → List Record
  | [] => []
  | v :: vs => v.pushRecords names ++ publish (v.pushNames names) vs

/-- The names that a peer knows after values were pushed to it. -/
def published (names : List String) (vs : List Value) : List String :=
  vs.foldl (fun names v => v.pushNames names) names

theorem publish_append (names : List String) (vs ws : List Value) :
    publish names (vs ++ ws) = publish names vs ++ publish (published names vs) ws := by
  induction vs generalizing names with
  | nil => rfl
  | cons v vs ih =>
    rw [List.cons_append, publish, publish, ih, List.append_assoc]
    rfl

theorem published_append (names : List String) (vs ws : List Value) :
    published names (vs ++ ws) = published (published names vs) ws :=
  List.foldl_append

theorem mem_pushNames {names : List String} {v : Value} {n : String} :
    n ∈ v.pushNames names ↔ n ∈ names ∨ v.name = n := by
  unfold pushNames
  split
  · next h =>
    rw [List.contains_iff_mem] at h
    exact ⟨.inl, fun hn => hn.elim id fun hn => hn ▸ h⟩
  · rw [List.mem_append, List.mem_singleton, eq_comm]

theorem mem_published {names : List String} {vs : List Value} {n : String} :
    n ∈ published names vs ↔ n ∈ names ∨ ∃ v ∈ vs, v.name = n := by
  induction vs generalizing names with
  | nil => simp [published]
  | cons v vs ih =>
    have hcons : published names (v :: vs) = published (v.pushNames names) vs := rfl
    rw [hcons, ih, mem_pushNames, or_assoc]
    simp

end Value

namespace Connection

variable {τ : Type}

/-- **Pushing values** one after the other. -/
theorem foldl_sendValue_eq (vs : List Value) (c : Connection τ) :
    vs.foldl (fun c v => c.sendValue v) c =
      { c with output := c.output ++ recordBytes (Value.publish c.announced vs)
               announced := Value.published c.announced vs } := by
  induction vs generalizing c with
  | nil => simp [Value.publish, Value.published]
  | cons v vs ih =>
    rw [List.foldl_cons, ih, sendValue_eq]
    simp only [Value.publish, recordBytes_append, List.append_assoc]
    rfl

end Connection

/-! ## Publishers -/

/-- An endpoint that publishes its values to one peer. -/
structure Publisher (τ : Type) where
  conn : Connection τ
  values : Registry := {}
  /-- Every value that was sent, as it was then, in the order of sending. -/
  sent : List Value := []

namespace Publisher

variable {τ : Type}

/-- The values that a broadcast sends. -/
def broadcasts (p : Publisher τ) : List Value :=
  if p.conn.kind.subscribes && p.conn.isEstablished then p.values.dirty else []

/-- One thing that the endpoint does. A change that is refused changes nothing. -/
inductive Step : Publisher τ → Publisher τ → Prop
  | create {p : Publisher τ} {v : Value} {values : Registry} (hv : v.contents.Proper)
    (h : p.values.create v = .ok values) : Step p { p with values }
  | change {p : Publisher τ} {m : Mutation} {name : String} {values : Registry} (hm : m.Proper)
    (h : p.values.update name m.attempt = .ok values) : Step p { p with values }
  | clearDirty {p : Publisher τ} : Step p { p with values := p.values.clearDirty }
  | send {p : Publisher τ} {v : Value} {name : String} (h : p.values.get? name = some v) :
    Step p { p with conn := p.conn.sendValue v, sent := p.sent ++ [v] }
  | sendAll {p : Publisher τ} :
    Step p { p with conn := p.conn.sendAll p.values, sent := p.sent ++ p.values.values }
  | broadcast {p : Publisher τ} :
    Step p { p with
      conn := p.conn.broadcastDirty p.values
      sent := p.sent ++ p.broadcasts }

/-- What has been written, and that a name always stands for one profile. -/
structure Kept (c : Connection τ) (p : Publisher τ) : Prop where
  conn : p.conn = { c with output := recordBytes (Value.publish [] p.sent)
                           announced := Value.published [] p.sent }
  sound : p.values.Sound
  known : ∀ v ∈ p.sent, v.profile ∈ p.values.profiles
  proper : ∀ v ∈ p.sent, v.contents.Proper

theorem kept_start {c : Connection τ} (hc : c.IsNew) : Kept c { conn := c } :=
  ⟨by simp [Value.publish, Value.published, ← hc.output, ← hc.announced], Registry.sound_empty,
    by simp, by simp⟩

/-- Values of the endpoint are sent. -/
theorem Kept.send {c : Connection τ} {p : Publisher τ} (h : Kept c p) {vs : List Value}
    (hvs : ∀ v ∈ vs, v ∈ p.values.values) :
    Kept c { p with
      conn := vs.foldl (fun c v => c.sendValue v) p.conn
      sent := p.sent ++ vs } where
  conn := by
    show List.foldl _ _ _ = _
    rw [Connection.foldl_sendValue_eq, h.conn, Value.publish_append, Value.published_append,
      recordBytes_append]
  sound := h.sound
  known := fun v hv => by
    rcases List.mem_append.1 hv with hv | hv
    · exact h.known v hv
    · exact Registry.profile_mem (hvs v hv)
  proper := fun v hv => by
    rcases List.mem_append.1 hv with hv | hv
    · exact h.proper v hv
    · exact h.sound.proper v (hvs v hv)

/-- **One step** keeps all of it. -/
theorem Step.kept {c : Connection τ} {p q : Publisher τ} (hstep : Step p q) (h : Kept c p) :
    Kept c q := by
  cases hstep with
  | create hv hcreate =>
    obtain ⟨hprofiles, -, -⟩ := Registry.profiles_of_create hcreate
    refine ⟨h.conn, h.sound.create hv hcreate, fun v hv => ?_, h.proper⟩
    show v.profile ∈ Registry.profiles _
    rw [hprofiles]
    exact List.mem_append_left _ (h.known v hv)
  | change hm hupdate =>
    obtain ⟨v, w, hv, hw, rfl⟩ := Registry.exists_of_update hupdate
    have hbecomes := (Mutation.becomes_of_attempt hw).1
    refine ⟨h.conn, h.sound.put hv hm hbecomes, fun u hu => ?_, h.proper⟩
    show u.profile ∈ Registry.profiles _
    rw [Registry.profiles_of_put hv hbecomes.profile]
    exact h.known u hu
  | clearDirty =>
    refine ⟨h.conn, h.sound.clearDirty, fun v hv => ?_, h.proper⟩
    show v.profile ∈ Registry.profiles _
    rw [Registry.profiles_clearDirty]
    exact h.known v hv
  | @send v _ hv =>
    refine h.send fun u (hu : u ∈ [v]) => ?_
    rw [List.mem_singleton.1 hu]
    exact (Registry.mem_of_get? hv).1
  | sendAll => exact h.send fun v hv => hv
  | broadcast =>
    unfold Connection.broadcastDirty broadcasts
    split
    · exact h.send fun v hv => List.mem_of_mem_filter hv
    · rw [List.append_nil]
      exact h

theorem kept_of_run {c : Connection τ} (hc : c.IsNew) {p : Publisher τ}
    (hrun : Relation.ReflTransGen Step { conn := c } p) : Kept c p := by
  induction hrun with
  | refl => exact kept_start hc
  | tail _ hstep ih => exact hstep.kept ih

/-- Values of one name were sent with one profile. -/
theorem Kept.profile_eq {c : Connection τ} {p : Publisher τ} (h : Kept c p) {u v : Value}
    (hu : u ∈ p.sent) (hv : v ∈ p.sent) (hname : u.name = v.name) : u.profile = v.profile :=
  h.sound.distinct.profile_eq (h.known u hu) (h.known v hv) hname

end Publisher

end Observatory
