import Observatory.Proofs.Connection.Replicas
import Observatory.Proofs.Endpoint.Ledger
/-!
# What an endpoint lends

The values and the back end are lent to whichever connection has a record to handle, and come back
from it. Between the records only the owner, the back end and the sweeps for dirty values have hands
on them. So what every record of some kind keeps is kept by a whole run, as far as nothing else is
heard in it. On the way of the records to the connection this is said of the copies of the peer's
values too, which only records change.

* `Connection.kept_processFrame`, `kept_receive`, `kept_readFor` — the way of a record.
* `Happening.heard`, `Happening.heardDuring` — the records that are handled.
* `Happening.own_apply_cases` — where nothing is heard.
* `Happening.kept_apply` — one thing that happens.
-/

namespace Observatory

open Framing (Frame)

namespace Connection

variable {τ σ : Type}

/-- Only requests touch what is lent. -/
theorem own_dispatch (dev : Device σ) {r : Record} (hr : r.isRequest = false) (t : Turn τ σ) :
    (dispatch dev r t).1.own = t.own := by
  cases r with
  | set name op text => cases hr
  | command opcode params => cases hr
  | _ => rfl

section

/-! What is kept is said of a turn, as far as it depends on the copies and on what is lent. -/

variable {dev : Device σ} {R : Record → Prop} {P : Turn τ σ → Prop}
  (hkeep : ∀ (t : Turn τ σ) (r : Record), R r → P t → P (dispatch dev r t).1)
  (hrest : ∀ (t : Turn τ σ) (d : Connection τ), d.replicas = t.conn.replicas → P t →
    P { t with conn := d })

include hkeep hrest

theorem kept_processFrame {t : Turn τ σ} {frame : Frame} (hr : ∀ r ∈ recordOf? frame, R r)
    (h : P t) : P (processFrame dev t frame) := by
  cases hclosed : t.conn.isClosed with
  | true =>
    unfold processFrame
    rw [if_pos hclosed]
    exact h
  | false =>
    have hhandled := handled_processFrame dev hclosed frame
    generalize recordOf? frame = record, processFrame dev t frame = t' at hhandled hr ⊢
    cases hhandled with
    | blank => exact h
    | malformed => exact hrest t _ (replicas_countParseError t.conn) h
    | accepted _ => exact hrest _ _ rfl (hkeep t _ (hr _ rfl) h)
    | refused _ => exact hrest _ _ (replicas_countParseError _) (hkeep t _ (hr _ rfl) h)

theorem kept_frames {t : Turn τ σ} {frames : List Frame}
    (hr : ∀ r ∈ frames.filterMap recordOf?, R r) (h : P t) :
    P (frames.foldl (processFrame dev) t) := by
  induction frames generalizing t with
  | nil => exact h
  | cons frame frames ih =>
    have hfirst : ∀ r ∈ recordOf? frame, R r := fun r hmem =>
      hr r (List.mem_filterMap.2 ⟨frame, List.mem_cons_self, hmem⟩)
    have hlater : ∀ r ∈ frames.filterMap recordOf?, R r := fun r hmem =>
      hr r (((List.sublist_cons_self frame frames).filterMap recordOf?).subset hmem)
    exact ih hlater (kept_processFrame hkeep hrest hfirst h)

/-- Bytes of a peer. -/
theorem kept_receive (now : Instant) {bytes : Bytes} {t : Turn τ σ}
    (hr : ∀ r ∈ (t.conn.input.push bytes).1.filterMap recordOf?, R r) (h : P t) :
    P (receive dev now bytes t) :=
  kept_frames hkeep hrest hr (hrest t _ rfl h)

/-- A stream that is read. The induction is on the readings left, like the reading itself. -/
theorem kept_readFor (T : Transport τ) (now : Instant) {readings : Nat} (moved : Bool)
    {t : Turn τ σ} (hr : ∀ r ∈ (heardFor T dev now readings t).filterMap recordOf?, R r)
    (h : P t) : P (readFor T dev now readings moved t).2 := by
  induction readings generalizing moved t with
  | zero => exact h
  | succ readings ih =>
    have hread (link : Link τ) : P (t.onConn fun c => { c with link }) := hrest t _ rfl h
    unfold heardFor at hr
    unfold readFor
    cases hwants : t.conn.wantsRead with
    | false => exact h
    | true =>
      cases hlink : t.conn.link with
      | detached => exact h
      | connecting address => exact h
      | stream s =>
        cases hanswer : T.read readChunk s with
        | mk answer next =>
          simp only [hwants, hlink, hanswer] at hr ⊢
          cases answer with
          | notReady => exact hread _
          | wouldBlock => exact hread _
          | endOfStream => exact hrest _ _ (replicas_endOfInput _) (hread _)
          | failed reason => exact hrest _ _ rfl (hread _)
          | data bytes =>
            cases bytes with
            | nil => exact hrest _ _ (replicas_endOfInput _) (hread _)
            | cons b bs =>
              dsimp only at hr
              rw [List.filterMap_append] at hr
              refine ih true (fun r hmem => hr r (List.mem_append_right _ hmem)) ?_
              exact kept_receive hkeep hrest now
                (fun r hmem => hr r (List.mem_append_left _ hmem)) (hread _)

end

end Connection

open Connection (recordOf?)

namespace Endpoint

variable {τ σ ℓ η : Type} {w : Wiring τ σ ℓ η}

/-- What is lent. -/
def own (e : Endpoint τ σ ℓ η) : Local σ := ⟨e.values, e.device⟩

theorem kept_readOne {R : Record → Prop} {P : Turn τ σ → Prop}
    (hkeep : ∀ (t : Turn τ σ) (r : Record), R r → P t → P (Connection.dispatch w.device r t).1)
    (hrest : ∀ (t : Turn τ σ) (d : Connection τ), d.replicas = t.conn.replicas → P t →
      P { t with conn := d })
    (p : Pass τ) {t : Turn τ σ} (hr : ∀ r ∈ (heardOne w p t).filterMap recordOf?, R r) (h : P t) :
    P (readOne w p t).2 := by
  have hpolled : P { t with conn := (t.conn.pollConnect (p.connects t.conn.id) p.now).2 } :=
    hrest t _ (Connection.replicas_pollConnect _ _ _) h
  unfold heardOne at hr
  unfold readOne Connection.readPass
  dsimp only at hr ⊢
  refine hrest _ _ (Connection.replicas_errorPass _ _) ?_
  cases hlink : (t.conn.pollConnect (p.connects t.conn.id) p.now).2.link with
  | detached => exact hpolled
  | connecting address => exact hpolled
  | stream s =>
    rw [hlink] at hr
    exact Connection.kept_readFor hkeep hrest w.transport p.now false hr hpolled

theorem kept_readEach {R : Record → Prop} {P : Local σ → Prop}
    (hkeep : ∀ (t : Turn τ σ) (r : Record), R r → P t.own →
      P (Connection.dispatch w.device r t).1.own)
    (p : Pass τ) {items : List (Connection τ)} {own : Local σ}
    (hr : ∀ r ∈ (heardEach w p items own).filterMap recordOf?, R r) (h : P own) :
    P (readEach w p items own).2.2 := by
  induction items generalizing own with
  | nil => exact h
  | cons c rest ih =>
    unfold heardEach at hr
    rw [List.filterMap_append] at hr
    refine ih (fun r hmem => hr r (List.mem_append_right _ hmem)) ?_
    exact kept_readOne (P := fun t => P t.own) hkeep (fun _ _ _ h => h) p
      (fun r hmem => hr r (List.mem_append_left _ hmem)) h

end Endpoint

namespace Happening

variable {τ σ ℓ η : Type} {w : Wiring τ σ ℓ η} {e : Endpoint τ σ ℓ η}

/-- The records that are handled. -/
def heard (w : Wiring τ σ ℓ η) (h : Happening τ ℓ) (e : Endpoint τ σ ℓ η) : List Record :=
  (h.frames w e).filterMap recordOf?

/-- The records that are handled in a run, in their order. -/
def heardDuring (w : Wiring τ σ ℓ η) : List (Happening τ ℓ) → Endpoint τ σ ℓ η → List Record
  | [], _ => []
  | h :: hs, e => h.heard w e ++ heardDuring w hs (h.apply w e)

/-- Whether the owner has hands on the values or on the status. -/
def isOwners : Happening τ ℓ → Bool
  | touch _ => true
  | setStatus _ _ => true
  | _ => false

/-- **Where nothing is heard** and neither the owner nor the back end acts, marks are all that may
change. -/
theorem own_apply_cases {h : Happening τ ℓ} (howner : h.isOwners = false)
    (hdeaf : h.isHearing = false) (hdevice : h ≠ .runDevice) :
    (h.apply w e).own = e.own ∨
      (h.apply w e).own = { e.own with values := e.values.clearDirty } := by
  have hone (id : ConnId) (f : Connection τ → Connection τ) : (e.onOne id f).own = e.own := by
    unfold Endpoint.onOne
    split <;> rfl
  cases h with
  | touch values => cases howner
  | setStatus mask bits => cases howner
  | hear conn now bytes => cases hdeaf
  | read p => cases hdeaf
  | runDevice => exact absurd rfl hdevice
  | adopt spec started now =>
    rcases apply_adopt w spec started now e with ⟨-, happly⟩ | ⟨child, limit, -, happly⟩
    · exact .inl (by rw [happly])
    · exact .inl (by rw [happly]; rfl)
  | askClose conn => exact .inl (hone conn _)
  | takeOutput conn => exact .inl (hone conn _)
  | broadcastDirty =>
    show e.broadcastDirty.own = _ ∨ e.broadcastDirty.own = _
    unfold Endpoint.broadcastDirty
    split
    · exact .inr rfl
    · exact .inl rfl
  | infoAll => exact .inr rfl
  | _ => exact .inl rfl

section

variable {R : Record → Prop} {P : Local σ → Prop}
  (hkeep : ∀ (t : Turn τ σ) (r : Record), R r → P t.own →
    P (Connection.dispatch w.device r t).1.own)
  (hswept : ∀ own, P own → P { own with values := own.values.clearDirty })

include hkeep hswept

/-- **One thing that happens** keeps what the records that are heard keep, unless it is the back end
that runs. -/
theorem kept_apply {h : Happening τ ℓ} (howner : h.isOwners = false) (hdevice : h ≠ .runDevice)
    (hr : ∀ r ∈ h.heard w e, R r) (hown : P e.own) : P (h.apply w e).own := by
  cases hhears : h.isHearing with
  | false =>
    rcases own_apply_cases (w := w) (e := e) howner hhears hdevice with h | h
    · rw [h]
      exact hown
    · rw [h]
      exact hswept _ hown
  | true =>
    cases h with
    | hear conn now bytes =>
      show P (e.hear w conn now bytes).own
      unfold Endpoint.hear
      cases hfound : e.connection? conn with
      | none => exact hown
      | some c =>
        simp only [heard, frames, hfound] at hr
        exact Connection.kept_receive (P := fun t => P t.own) hkeep (fun _ _ _ h => h) now hr hown
    | read p => exact Endpoint.kept_readEach hkeep p hr hown
    | _ => cases hhears

end

end Happening

end Observatory
