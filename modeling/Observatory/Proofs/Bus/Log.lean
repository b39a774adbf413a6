import Mathlib.Data.List.Nodup
import Observatory.Bus
/-!
# The log of a delivery

What the bus does with an event, written down entry by entry: an event is posted, a listener is told
of it, an event is dropped. The log is kept beside the delivery and has no influence on it.

* `Bus.follow`, `Bus.carryOut` — a delivery with its log, and what the owner of the bus does, with
  the log of that.
* `Bus.follow_snd` — it is the delivery of the bus.
* `Bus.Entry.IsAlong` — an entry belongs to the delivery of an event and of those that provoked it.
* `Bus.Unfolds` — **a call and what it provokes**: whatever a listener posts is delivered right
  after the call, completely and in order, and no other entry of the log belongs to it.
-/

namespace Observatory.Bus

/-! ## Entries -/

/-- An event on its way to the listeners. -/
structure Posting where
  event : Event
  /-- The place in the log at which it was posted. -/
  id : Nat
  /-- The listener that posted it; nobody for an event that comes from outside. -/
  poster : Option Nat := none
  /-- The events in whose delivery it was posted, outermost first. -/
  above : List Nat := []
  deriving DecidableEq

namespace Posting

/-- How many events provoked one another down to this one. -/
def depth (p : Posting) : Nat := p.above.length

/-- An event with those in whose delivery it was posted. -/
def line (p : Posting) : List Nat := p.above ++ [p.id]

theorem id_mem_line (p : Posting) : p.id ∈ p.line :=
  List.mem_append_right _ (List.mem_singleton_self _)

@[simp] theorem length_line (p : Posting) : p.line.length = p.depth + 1 := by
  simp [line, depth]

end Posting

/-- One call to a listener. -/
structure Call (τ ℓ η : Type) where
  /-- Its place in the log. -/
  place : Nat
  posting : Posting
  listener : Nat
  /-- The listeners and the connections as the call finds them. -/
  before : Stage τ ℓ η

namespace Call

variable {τ ℓ η : Type} (react : React τ ℓ η) (c : Call τ ℓ η)

/-- What the call leaves behind. -/
def after : Stage τ ℓ η := (tell react c.posting.event c.listener c.before).2

/-- The events that the listener posts, in their order. -/
def events : List Event := (tell react c.posting.event c.listener c.before).1

/-- What the listener posts, with its places in the log: right behind the call. -/
def postings : List Posting :=
  (c.events react).mapIdx fun k event =>
    { event, id := c.place + 1 + k, poster := some c.listener, above := c.posting.line }

@[simp] theorem length_postings : (c.postings react).length = (c.events react).length := by
  simp [postings]

theorem of_mem_postings {q : Posting} (h : q ∈ c.postings react) :
    q.event ∈ c.events react ∧ q.poster = some c.listener ∧ q.above = c.posting.line ∧
      c.place < q.id ∧ q.id < c.place + 1 + (c.postings react).length := by
  obtain ⟨k, hk, rfl⟩ := List.mem_mapIdx.1 h
  rw [length_postings]
  exact ⟨List.getElem_mem hk, rfl, rfl, by dsimp only; omega, by dsimp only; omega⟩

theorem map_event_postings : (c.postings react).map (·.event) = c.events react := by
  refine List.ext_getElem (by simp) fun k h _ => ?_
  simp [postings]

theorem map_id_postings : (c.postings react).map (·.id) =
    List.range' (c.place + 1) (c.postings react).length := by
  refine List.ext_getElem (by simp) fun k h _ => ?_
  simp [postings]

theorem depth_of_mem_postings {q : Posting} (h : q ∈ c.postings react) :
    q.depth = c.posting.depth + 1 := by
  obtain ⟨-, -, habove, -, -⟩ := c.of_mem_postings react h
  rw [Posting.depth, habove, Posting.length_line]

theorem nodup_postings : (c.postings react).Nodup := by
  refine List.Nodup.of_map (·.id) ?_
  rw [map_id_postings]
  exact List.nodup_range'

theorem eq_of_id {q r : Posting} (hq : q ∈ c.postings react) (hr : r ∈ c.postings react)
    (hid : q.id = r.id) : q = r := by
  have hnodup : ((c.postings react).map (·.id)).Nodup := by
    rw [map_id_postings]
    exact List.nodup_range'
  exact List.inj_on_of_nodup_map hnodup hq hr hid

end Call

/-- One entry of the log. -/
inductive Entry (τ ℓ η : Type) where
  /-- An event is posted. -/
  | posted (p : Posting)
  /-- A listener is told of an event. -/
  | told (c : Call τ ℓ η)
  /-- An event is dropped. -/
  | dropped (place : Nat) (p : Posting)

namespace Entry

variable {τ ℓ η : Type}

/-- The place of an entry in the log. -/
def place : Entry τ ℓ η → Nat
  | posted p => p.id
  | told c => c.place
  | dropped place _ => place

/-- The events to whose delivery an entry belongs, outermost first. An event is posted before its
own delivery begins. -/
def line : Entry τ ℓ η → List Nat
  | posted p => p.above
  | told c => c.posting.line
  | dropped _ p => p.line

/-- The entry belongs to the delivery of an event. -/
def belongs (p : Posting) (x : Entry τ ℓ η) : Bool := p.id ∈ x.line

/-- An entry that a listener is told of something. -/
def isTold : Entry τ ℓ η → Bool
  | told _ => true
  | _ => false

/-- The listener that an entry says was told of an event. -/
def heard (p : Posting) : Entry τ ℓ η → Option Nat
  | told c => if c.posting = p then some c.listener else none
  | _ => none

/-- The entry belongs to the delivery of certain events, and beyond these only of events that were
posted at certain places. -/
def IsAlong (base : List Nat) (low high : Nat) (x : Entry τ ℓ η) : Prop :=
  ∃ more, x.line = base ++ more ∧ ∀ m ∈ more, low ≤ m ∧ m < high

theorem IsAlong.mono {base : List Nat} {low high low' high' : Nat} {x : Entry τ ℓ η}
    (h : x.IsAlong base low high) (hlow : low' ≤ low) (hhigh : high ≤ high') :
    x.IsAlong base low' high' := by
  obtain ⟨more, hline, hmore⟩ := h
  exact ⟨more, hline, fun m hm =>
    ⟨Nat.le_trans hlow (hmore m hm).1, Nat.lt_of_lt_of_le (hmore m hm).2 hhigh⟩⟩

theorem IsAlong.of_mem_line {base : List Nat} {low high m : Nat} {x : Entry τ ℓ η}
    (h : x.IsAlong base low high) (hm : m ∈ x.line) : m ∈ base ∨ low ≤ m ∧ m < high := by
  obtain ⟨more, hline, hmore⟩ := h
  rw [hline] at hm
  exact (List.mem_append.1 hm).imp_right (hmore m)

end Entry

/-! ## The log -/

section
variable {τ ℓ η α : Type}

/-- Several things are done in turn; each finds the place in the log that the one before it left. -/
def inTurn (f : α → Nat → Stage τ ℓ η → List (Entry τ ℓ η) × Stage τ ℓ η) :
    List α → Nat → Stage τ ℓ η → List (Entry τ ℓ η) × Stage τ ℓ η
  | [], _, s => ([], s)
  | x :: xs, place, s =>
    let first := f x place s
    let rest := inTurn f xs (place + first.1.length) first.2
    (first.1 ++ rest.1, rest.2)

/-- What a listener posted in a call is delivered. -/
def below (react : React τ ℓ η)
    (deliver : Posting → Nat → Stage τ ℓ η → List (Entry τ ℓ η) × Stage τ ℓ η)
    (c : Call τ ℓ η) : List (Entry τ ℓ η) × Stage τ ℓ η :=
  inTurn deliver (c.postings react) (c.place + 1 + (c.postings react).length) (c.after react)

/-- A listener is told of an event, and then what it posts is delivered. -/
def hear (react : React τ ℓ η)
    (deliver : Posting → Nat → Stage τ ℓ η → List (Entry τ ℓ η) × Stage τ ℓ η) (p : Posting)
    (listener place : Nat) (s : Stage τ ℓ η) : List (Entry τ ℓ η) × Stage τ ℓ η :=
  let c : Call τ ℓ η := ⟨place, p, listener, s⟩
  (.told c :: ((c.postings react).map .posted ++ (below react deliver c).1),
    (below react deliver c).2)

/-- Delivers an event with so many levels left below it, and keeps the log. -/
def follow (react : React τ ℓ η) :
    Nat → Posting → Nat → Stage τ ℓ η → List (Entry τ ℓ η) × Stage τ ℓ η
  | 0, p, place, s => ([.dropped place p], s)
  | depth + 1, p, place, s =>
    inTurn (hear react (follow react depth) p) (List.range s.listeners.length) place s

/-- What the owner of a bus does with it. -/
inductive Act (τ ℓ : Type) where
  /-- Adds a listener. -/
  | listen (listener : ℓ)
  /-- Posts an event, with the connections as they are by then. -/
  | post (event : Event) (connections : Connections τ)

/-- Carries out what the owner does, and keeps the log. -/
def carryOut (react : React τ ℓ η) :
    Act τ ℓ → Nat → Stage τ ℓ η → List (Entry τ ℓ η) × Stage τ ℓ η
  | .listen listener, _, s => ([], { s with listeners := s.listeners ++ [listener] })
  | .post event connections, place, s =>
    let p : Posting := { event, id := place }
    let delivery := follow react maxDepth p (place + 1) { s with connections }
    (.posted p :: delivery.1, delivery.2)

end

/-! ## Things done in turn -/

section
variable {τ ℓ η α : Type}
  {f : α → Nat → Stage τ ℓ η → List (Entry τ ℓ η) × Stage τ ℓ η}

theorem inTurn_append (xs ys : List α) (place : Nat) (s : Stage τ ℓ η) :
    inTurn f (xs ++ ys) place s =
      ((inTurn f xs place s).1 ++ (inTurn f ys (place + (inTurn f xs place s).1.length)
        (inTurn f xs place s).2).1,
        (inTurn f ys (place + (inTurn f xs place s).1.length) (inTurn f xs place s).2).2) := by
  induction xs generalizing place s with
  | nil => rfl
  | cons x xs ih =>
    simp only [List.cons_append, inTurn, ih, List.length_append, List.append_assoc, Nat.add_assoc]

theorem inTurn_snd {g : Stage τ ℓ η → α → Stage τ ℓ η} (h : ∀ x place s, (f x place s).2 = g s x)
    (xs : List α) (place : Nat) (s : Stage τ ℓ η) : (inTurn f xs place s).2 = xs.foldl g s := by
  induction xs generalizing place s with
  | nil => rfl
  | cons x xs ih => simp only [inTurn, ih, h, List.foldl_cons]

/-- What every turn keeps, all of them keep. -/
theorem inTurn_keeps {P : Stage τ ℓ η → Prop} (h : ∀ x place s, P s → P (f x place s).2)
    (xs : List α) (place : Nat) {s : Stage τ ℓ η} (hs : P s) : P (inTurn f xs place s).2 := by
  induction xs generalizing place s with
  | nil => exact hs
  | cons x xs ih => exact ih _ (h x place s hs)

/-- **One turn** of those that left an entry, with what was before it and what came after. -/
theorem inTurn_split {P : Stage τ ℓ η → Prop} (h : ∀ x place s, P s → P (f x place s).2)
    {xs : List α} {place : Nat} {s : Stage τ ℓ η} (hs : P s) {e : Entry τ ℓ η}
    (he : e ∈ (inTurn f xs place s).1) : ∃ xs₁ x xs₂ s₁, xs = xs₁ ++ x :: xs₂ ∧ P s₁ ∧
      let before := (inTurn f xs₁ place s).1
      let turn := f x (place + before.length) s₁
      let rest := (inTurn f xs₂ (place + before.length + turn.1.length) turn.2).1
      (inTurn f xs place s).1 = before ++ turn.1 ++ rest ∧ e ∈ turn.1 := by
  induction xs generalizing place s with
  | nil => cases he
  | cons x xs ih =>
    rcases List.mem_append.1 he with he | he
    · exact ⟨[], x, xs, s, rfl, hs, rfl, he⟩
    · obtain ⟨xs₁, y, xs₂, s₁, rfl, hs₁, heq, hmem⟩ := ih (h x place s hs) he
      refine ⟨x :: xs₁, y, xs₂, s₁, rfl, hs₁, ?_, ?_⟩
      · simp only [inTurn, heq, List.length_append, List.append_assoc, Nat.add_assoc]
      · simpa only [inTurn, List.length_append, Nat.add_assoc] using hmem

/-- An entry was left by one of the turns, at a place among those of all. -/
theorem exists_of_mem_inTurn {P : Stage τ ℓ η → Prop} (h : ∀ x place s, P s → P (f x place s).2)
    {xs : List α} {place : Nat} {s : Stage τ ℓ η} (hs : P s) {e : Entry τ ℓ η}
    (he : e ∈ (inTurn f xs place s).1) : ∃ x ∈ xs, ∃ place' s', P s' ∧ e ∈ (f x place' s').1 ∧
      (f x place' s').1 ⊆ (inTurn f xs place s).1 ∧ place ≤ place' ∧
      place' + (f x place' s').1.length ≤ place + (inTurn f xs place s).1.length := by
  obtain ⟨xs₁, x, xs₂, s₁, rfl, hs₁, heq, hmem⟩ := inTurn_split h hs he
  refine ⟨x, by simp, _, s₁, hs₁, hmem, fun y hy => ?_, Nat.le_add_right _ _, ?_⟩
  · rw [heq]
    exact List.mem_append_left _ (List.mem_append_right _ hy)
  · rw [heq, List.length_append, List.length_append]
    omega

end

/-! ## Places -/

section
variable {τ ℓ η α : Type} (react : React τ ℓ η)

/-- The entries stand one behind the other from a place on. -/
def Placed (place : Nat) (entries : List (Entry τ ℓ η)) : Prop :=
  entries.map Entry.place = List.range' place entries.length

theorem Placed.append {place : Nat} {es rest : List (Entry τ ℓ η)} (hes : Placed place es)
    (hrest : Placed (place + es.length) rest) : Placed place (es ++ rest) := by
  unfold Placed at *
  rw [List.map_append, hes, hrest, List.length_append, List.range'_append_1]

theorem Placed.bounds {place : Nat} {es : List (Entry τ ℓ η)} (hes : Placed place es)
    {x : Entry τ ℓ η} (hx : x ∈ es) : place ≤ x.place ∧ x.place < place + es.length := by
  have hmem : x.place ∈ es.map Entry.place := List.mem_map_of_mem hx
  rw [hes] at hmem
  simpa using hmem

theorem Placed.of_append {place : Nat} {es rest : List (Entry τ ℓ η)}
    (h : Placed place (es ++ rest)) : Placed place es ∧ Placed (place + es.length) rest := by
  unfold Placed at *
  rw [List.map_append, List.length_append, ← List.range'_append_1] at h
  exact List.append_inj h (by simp)

theorem Placed.place_lt {place : Nat} {es rest : List (Entry τ ℓ η)} (h : Placed place (es ++ rest))
    {x y : Entry τ ℓ η} (hx : x ∈ es) (hy : y ∈ rest) : x.place < y.place := by
  obtain ⟨hes, hrest⟩ := h.of_append
  exact Nat.lt_of_lt_of_le (hes.bounds hx).2 (hrest.bounds hy).1

/-- What stands behind an entry has a later place. -/
theorem Placed.place_lt_of_mem {place : Nat} {es rest : List (Entry τ ℓ η)} {x y : Entry τ ℓ η}
    (h : Placed place (es ++ x :: rest)) (hy : y ∈ rest) : x.place < y.place := by
  rw [List.append_cons] at h
  exact h.place_lt (List.mem_append_right _ (List.mem_singleton_self x)) hy

theorem Placed.mem_after {place : Nat} {es rest : List (Entry τ ℓ η)} {x y : Entry τ ℓ η}
    (h : Placed place (es ++ x :: rest)) (hy : y ∈ es ++ x :: rest) (hlt : x.place < y.place) :
    y ∈ rest := by
  rcases List.mem_append.1 hy with hy | hy
  · exact absurd (h.place_lt hy List.mem_cons_self) (Nat.lt_asymm hlt)
  rcases List.mem_cons.1 hy with rfl | hy
  · exact absurd hlt (Nat.lt_irrefl _)
  · exact hy

theorem Placed.mem_before {place : Nat} {es rest : List (Entry τ ℓ η)} {x y : Entry τ ℓ η}
    (h : Placed place (es ++ x :: rest)) (hy : y ∈ es ++ x :: rest) (hlt : y.place < x.place) :
    y ∈ es := by
  rcases List.mem_append.1 hy with hy | hy
  · exact hy
  rcases List.mem_cons.1 hy with rfl | hy
  · exact absurd hlt (Nat.lt_irrefl _)
  · exact absurd (h.place_lt_of_mem hy) (Nat.lt_asymm hlt)

theorem Placed.eq_of_place {place : Nat} {es : List (Entry τ ℓ η)} (h : Placed place es)
    {x y : Entry τ ℓ η} (hx : x ∈ es) (hy : y ∈ es) (hplace : x.place = y.place) : x = y := by
  have hnodup : (es.map Entry.place).Nodup := by
    rw [h]
    exact List.nodup_range'
  exact List.inj_on_of_nodup_map hnodup hx hy hplace

theorem placed_inTurn {f : α → Nat → Stage τ ℓ η → List (Entry τ ℓ η) × Stage τ ℓ η}
    (hf : ∀ x place s, Placed place (f x place s).1) (xs : List α) (place : Nat)
    (s : Stage τ ℓ η) : Placed place (inTurn f xs place s).1 := by
  induction xs generalizing place s with
  | nil => rfl
  | cons x xs ih => exact (hf x place s).append (ih _ _)

theorem placed_postings (c : Call τ ℓ η) : Placed (c.place + 1)
    ((c.postings react).map fun q => (.posted q : Entry τ ℓ η)) := by
  unfold Placed
  rw [List.map_map, List.length_map]
  exact c.map_id_postings react

theorem placed_hear {deliver : Posting → Nat → Stage τ ℓ η → List (Entry τ ℓ η) × Stage τ ℓ η}
    (hdeliver : ∀ q place s, Placed place (deliver q place s).1) (p : Posting)
    (listener place : Nat) (s : Stage τ ℓ η) :
    Placed place (hear react deliver p listener place s).1 := by
  have hcall : Placed place [(.told ⟨place, p, listener, s⟩ : Entry τ ℓ η)] := rfl
  refine hcall.append ((placed_postings react _).append ?_)
  rw [List.length_map]
  exact placed_inTurn hdeliver _ _ _

theorem placed_follow (depth : Nat) (p : Posting) (place : Nat) (s : Stage τ ℓ η) :
    Placed place (follow react depth p place s).1 := by
  induction depth generalizing p place s with
  | zero => rfl
  | succ depth ih => exact placed_inTurn (placed_hear react ih p) _ _ _

theorem placed_carryOut (act : Act τ ℓ) (place : Nat) (s : Stage τ ℓ η) :
    Placed place (carryOut react act place s).1 := by
  cases act with
  | listen _ => rfl
  | post event connections =>
    have hposted : Placed place [(.posted { event, id := place } : Entry τ ℓ η)] := rfl
    exact hposted.append (placed_follow react _ _ _ _)

end

/-! ## The delivery itself -/

section
variable {τ ℓ η : Type} (react : React τ ℓ η)

/-- **The log changes nothing**: what is delivered with a log is what the bus delivers. -/
theorem follow_snd (depth : Nat) (p : Posting) (place : Nat) (s : Stage τ ℓ η) :
    (follow react depth p place s).2 = deliverWithin react depth s p.event := by
  induction depth generalizing p place s with
  | zero => rfl
  | succ depth ih =>
    unfold follow deliverWithin
    refine inTurn_snd (fun listener place s => ?_) _ _ _
    have hposted := inTurn_snd ih (Call.postings react ⟨place, p, listener, s⟩)
    refine (hposted _ _).trans ?_
    show _ = (Call.events react ⟨place, p, listener, s⟩).foldl (deliverWithin react depth)
      (Call.after react ⟨place, p, listener, s⟩)
    rw [← Call.map_event_postings, List.foldl_map]

end

/-! ## The delivery itself, call by call -/

section
variable {τ ℓ η α : Type} (react : React τ ℓ η) (Between : Stage τ ℓ η → Stage τ ℓ η → Prop)

/-- The calls of a log, one after another, lead from one stage to another; between them the stage
may change in a certain way. -/
inductive Replays : Stage τ ℓ η → List (Entry τ ℓ η) → Stage τ ℓ η → Prop
  | nil (s : Stage τ ℓ η) : Replays s [] s
  | told {c : Call τ ℓ η} {s : Stage τ ℓ η} {log : List (Entry τ ℓ η)}
    (h : Replays (c.after react) log s) : Replays c.before (.told c :: log) s
  | other {x : Entry τ ℓ η} {s s' : Stage τ ℓ η} {log : List (Entry τ ℓ η)} (hx : x.isTold = false)
    (h : Replays s log s') : Replays s (x :: log) s'
  | between {s s₁ s' : Stage τ ℓ η} {log : List (Entry τ ℓ η)} (hbetween : Between s s₁)
    (h : Replays s₁ log s') : Replays s log s'

variable {react Between}

theorem Replays.append {s s₁ s' : Stage τ ℓ η} {log rest : List (Entry τ ℓ η)}
    (h : Replays react Between s log s₁) (h' : Replays react Between s₁ rest s') :
    Replays react Between s (log ++ rest) s' := by
  induction h with
  | nil _ => exact h'
  | told _ ih => exact .told (ih h')
  | other hx _ ih => exact .other hx (ih h')
  | between hbetween _ ih => exact .between hbetween (ih h')

theorem Replays.split {s s' : Stage τ ℓ η} {log rest : List (Entry τ ℓ η)}
    (h : Replays react Between s (log ++ rest) s') :
    ∃ s₁, Replays react Between s log s₁ ∧ Replays react Between s₁ rest s' := by
  generalize hwhole : log ++ rest = whole at h
  induction h generalizing log with
  | nil s =>
    obtain ⟨rfl, rfl⟩ := List.append_eq_nil_iff.1 hwhole
    exact ⟨s, .nil s, .nil s⟩
  | @told c s' log' h ih =>
    cases log with
    | nil =>
      obtain rfl : rest = .told c :: log' := hwhole
      exact ⟨c.before, .nil _, .told h⟩
    | cons x log =>
      obtain ⟨rfl, htail⟩ := List.cons.inj hwhole
      obtain ⟨s₁, hlog, hrest⟩ := ih htail
      exact ⟨s₁, .told hlog, hrest⟩
  | @other y s s' log' hy h ih =>
    cases log with
    | nil =>
      obtain rfl : rest = y :: log' := hwhole
      exact ⟨s, .nil _, .other hy h⟩
    | cons x log =>
      obtain ⟨rfl, htail⟩ := List.cons.inj hwhole
      obtain ⟨s₁, hlog, hrest⟩ := ih htail
      exact ⟨s₁, .other hy hlog, hrest⟩
  | between hbetween _ ih =>
    obtain ⟨s₁, hlog, hrest⟩ := ih hwhole
    exact ⟨s₁, .between hbetween hlog, hrest⟩

/-- A call finds what can come of the stage before it, and leaves its own. -/
theorem Replays.of_told {P : Stage τ ℓ η → Prop} (hbetween : ∀ s s', Between s s' → P s → P s')
    {s s' : Stage τ ℓ η} {c : Call τ ℓ η} {log : List (Entry τ ℓ η)}
    (h : Replays react Between s (.told c :: log) s') (hs : P s) :
    P c.before ∧ Replays react Between (c.after react) log s' := by
  generalize hwhole : Entry.told c :: log = whole at h
  induction h with
  | nil _ => cases hwhole
  | told h _ =>
    obtain ⟨heq, rfl⟩ := List.cons.inj hwhole
    obtain rfl := Entry.told.inj heq
    exact ⟨hs, h⟩
  | other hx _ _ =>
    obtain ⟨rfl, -⟩ := List.cons.inj hwhole
    cases hx
  | between hs₁ _ ih => exact ih (hbetween _ _ hs₁ hs) hwhole

/-- **What every call keeps** holds at every call and in the end. -/
theorem Replays.keeps {P : Stage τ ℓ η → Prop} (hbetween : ∀ s s', Between s s' → P s → P s')
    {s s' : Stage τ ℓ η} {log : List (Entry τ ℓ η)} (h : Replays react Between s log s')
    (hcall : ∀ c : Call τ ℓ η, .told c ∈ log → P c.before → P (c.after react)) (hs : P s) :
    P s' ∧ ∀ c, .told c ∈ log → P c.before := by
  induction h with
  | nil _ => exact ⟨hs, fun c hc => nomatch hc⟩
  | @told c _ _ _ ih =>
    obtain ⟨hend, hcalls⟩ := ih (fun c hc => hcall c (by simp [hc])) (hcall c (by simp) hs)
    refine ⟨hend, fun c' hc' => ?_⟩
    rcases List.mem_cons.1 hc' with heq | hc'
    · rw [Entry.told.inj heq]
      exact hs
    · exact hcalls c' hc'
  | other hx _ ih =>
    obtain ⟨hend, hcalls⟩ := ih (fun c hc => hcall c (by simp [hc])) hs
    refine ⟨hend, fun c hc => ?_⟩
    rcases List.mem_cons.1 hc with rfl | hc
    · cases hx
    · exact hcalls c hc
  | between hs₁ _ ih => exact ih hcall (hbetween _ _ hs₁ hs)

variable (react Between)

theorem replays_marks (ps : List Posting) (s : Stage τ ℓ η) :
    Replays react Between s (ps.map .posted) s := by
  induction ps with
  | nil => exact .nil s
  | cons _ _ ih => exact .other rfl ih

theorem replays_inTurn {f : α → Nat → Stage τ ℓ η → List (Entry τ ℓ η) × Stage τ ℓ η}
    (hf : ∀ x place s, Replays react Between s (f x place s).1 (f x place s).2) (xs : List α)
    (place : Nat) (s : Stage τ ℓ η) :
    Replays react Between s (inTurn f xs place s).1 (inTurn f xs place s).2 := by
  induction xs generalizing place s with
  | nil => exact .nil s
  | cons x xs ih => exact (hf x place s).append (ih _ _)

/-- **The calls of a delivery** are all that it does. -/
theorem replays_follow (depth : Nat) (p : Posting) (place : Nat) (s : Stage τ ℓ η) :
    Replays react Between s (follow react depth p place s).1 (follow react depth p place s).2 := by
  induction depth generalizing p place s with
  | zero => exact .other rfl (.nil s)
  | succ depth ih =>
    refine replays_inTurn react Between (fun listener place s => ?_) _ _ _
    exact Replays.told (c := ⟨place, p, listener, s⟩)
      ((replays_marks react Between _ _).append (replays_inTurn react Between ih _ _ _))

end

/-! ## What belongs to a delivery -/

section
variable {τ ℓ η α : Type} (react : React τ ℓ η)

theorem along_hear {deliver : Posting → Nat → Stage τ ℓ η → List (Entry τ ℓ η) × Stage τ ℓ η}
    (hdeliver : ∀ q place s, ∀ x ∈ (deliver q place s).1,
      x.IsAlong q.line place (place + (deliver q place s).1.length))
    (p : Posting) (listener place : Nat) (s : Stage τ ℓ η) :
    ∀ x ∈ (hear react deliver p listener place s).1,
      x.IsAlong p.line place (place + (hear react deliver p listener place s).1.length) := by
  intro x hx
  let c : Call τ ℓ η := ⟨place, p, listener, s⟩
  have hlength : (hear react deliver p listener place s).1.length =
      1 + (c.postings react).length + (below react deliver c).1.length := by
    simp only [hear, List.length_cons, List.length_append, List.length_map, c]
    omega
  rcases List.mem_cons.1 hx with rfl | hx
  · exact ⟨[], (List.append_nil _).symm, by simp⟩
  rcases List.mem_append.1 hx with hposted | hbelow
  · obtain ⟨q, hq, rfl⟩ := List.mem_map.1 hposted
    obtain ⟨-, -, habove, -, -⟩ := Call.of_mem_postings react c hq
    exact ⟨[], habove.trans (List.append_nil _).symm, by simp⟩
  · obtain ⟨q, hq, place', s', -, hmem, -, hlow, hhigh⟩ :=
      exists_of_mem_inTurn (P := fun _ => True) (fun _ _ _ _ => trivial) trivial hbelow
    obtain ⟨-, -, habove, hid, hid'⟩ := Call.of_mem_postings react c hq
    obtain ⟨more, hline, hmore⟩ := hdeliver q place' s' x hmem
    refine ⟨q.id :: more, ?_, fun m hm => ?_⟩
    · rw [hline, Posting.line, habove, List.append_assoc]
      rfl
    · rw [hlength]
      have hplace : c.place = place := rfl
      have hbounds : c.place + 1 + (c.postings react).length ≤ place' ∧
          place' + (deliver q place' s').1.length ≤
            c.place + 1 + (c.postings react).length + (below react deliver c).1.length :=
        ⟨hlow, hhigh⟩
      rcases List.mem_cons.1 hm with rfl | hm
      · omega
      · have := hmore m hm
        omega

/-- **The delivery of an event** belongs to it, and beyond it only to events posted in its
course. -/
theorem along_follow (depth : Nat) (p : Posting) (place : Nat) (s : Stage τ ℓ η) :
    ∀ x ∈ (follow react depth p place s).1,
      x.IsAlong p.line place (place + (follow react depth p place s).1.length) := by
  induction depth generalizing p place s with
  | zero =>
    intro x hx
    rw [List.mem_singleton.1 hx]
    exact ⟨[], (List.append_nil _).symm, by simp⟩
  | succ depth ih =>
    intro x hx
    obtain ⟨listener, -, place', s', -, hhear, -, hlow, hhigh⟩ :=
      exists_of_mem_inTurn (P := fun _ => True) (fun _ _ _ _ => trivial) trivial hx
    exact (along_hear react ih p listener place' s' x hhear).mono hlow hhigh

/-! ## A call and what it provokes -/

/-- **A call in a log**: what the listener posts in it is entered right behind it, then all of that
is delivered in its order, and no other entry belongs to one of these deliveries. -/
def Unfolds (levels : Nat) (c : Call τ ℓ η) (log : List (Entry τ ℓ η)) : Prop :=
  (∀ m ∈ c.posting.line, m < c.place) ∧ ∃ depth before rest, c.posting.depth + depth + 1 = levels ∧
    log = before ++ .told c :: ((c.postings react).map .posted ++
      (below react (follow react depth) c).1 ++ rest) ∧
    ∀ x ∈ before ++ rest, ∀ q ∈ c.postings react, q.id ∉ x.line

variable {react}

theorem Unfolds.mem {levels : Nat} {c : Call τ ℓ η} {log : List (Entry τ ℓ η)}
    (h : Unfolds react levels c log) :
    .told c ∈ log ∧ ∀ q ∈ c.postings react, .posted q ∈ log := by
  obtain ⟨-, depth, before, rest, -, rfl, -⟩ := h
  refine ⟨by simp, fun q hq => ?_⟩
  have hmem : (.posted q : Entry τ ℓ η) ∈ (c.postings react).map .posted := List.mem_map_of_mem hq
  simp [hmem]

/-- What holds of a call in a part of a log holds in the whole, if the rest is about events posted
at other places. -/
theorem Unfolds.extend {levels place : Nat} {c : Call τ ℓ η} {es : List (Entry τ ℓ η)}
    (h : Unfolds react levels c es) (before rest : List (Entry τ ℓ η)) (hplaced : Placed place es)
    (hclear : ∀ x ∈ before ++ rest, ∀ m ∈ x.line, m < place ∨ place + es.length ≤ m) :
    Unfolds react levels c (before ++ es ++ rest) := by
  have hids : ∀ q ∈ c.postings react, place ≤ q.id ∧ q.id < place + es.length :=
    fun q hq => hplaced.bounds (h.mem.2 q hq)
  obtain ⟨hearlier, depth, before', rest', hlevels, rfl, hclear'⟩ := h
  refine ⟨hearlier, depth, before ++ before', rest' ++ rest, hlevels, by simp,
    fun x hx q hq hmem => ?_⟩
  by_cases hx' : x ∈ before' ++ rest'
  · exact hclear' x hx' q hq hmem
  · have hout : x ∈ before ++ rest := by
      simp only [List.mem_append] at hx hx' ⊢
      tauto
    have := hclear x hout q.id hmem
    have := hids q hq
    omega

/-- **Calls in one of several turns.** -/
theorem Unfolds.inTurn {f : α → Nat → Stage τ ℓ η → List (Entry τ ℓ η) × Stage τ ℓ η}
    {base : α → List Nat} {xs : List α} {levels place : Nat} {s : Stage τ ℓ η} {c : Call τ ℓ η}
    (hplaced : ∀ x place s, Placed place (f x place s).1)
    (halong : ∀ x place s, ∀ e ∈ (f x place s).1,
      e.IsAlong (base x) place (place + (f x place s).1.length))
    (hbase : ∀ x ∈ xs, ∀ m ∈ base x, m < place)
    (hturn : ∀ x ∈ xs, ∀ place' s', place ≤ place' → .told c ∈ (f x place' s').1 →
      Unfolds react levels c (f x place' s').1)
    (hc : .told c ∈ (inTurn f xs place s).1) :
    Unfolds react levels c (inTurn f xs place s).1 := by
  obtain ⟨xs₁, x, xs₂, s₁, rfl, -, hlog, hmem⟩ :=
    inTurn_split (P := fun _ => True) (fun _ _ _ _ => trivial) trivial hc
  rw [hlog]
  refine (hturn x (by simp) _ _ (Nat.le_add_right _ _) hmem).extend _ _ (hplaced _ _ _) ?_
  intro e he m hm
  have hother {ys : List α} {place' : Nat} {s' : Stage τ ℓ η} (hys : ∀ y ∈ ys, y ∈ xs₁ ++ x :: xs₂)
      (he : e ∈ (Bus.inTurn f ys place' s').1) : m < place ∨
        place' ≤ m ∧ m < place' + (Bus.inTurn f ys place' s').1.length := by
    obtain ⟨y, hy, place'', s'', -, hmem', -, hlow, hhigh⟩ :=
      exists_of_mem_inTurn (P := fun _ => True) (fun _ _ _ _ => trivial) trivial he
    rcases (halong y place'' s'' e hmem').of_mem_line hm with hm | hm
    · exact .inl (hbase y (hys y hy) m hm)
    · omega
  rcases List.mem_append.1 he with he | he
  · have := hother (fun y hy => by simp [hy]) he
    omega
  · have := hother (fun y hy => by simp [hy]) he
    omega

variable (react)

theorem unfolds_hear {depth levels : Nat} {p : Posting} (hdepth : p.depth + depth + 1 = levels)
    (hfollow : ∀ q place s, q.depth + depth = levels → (∀ m ∈ q.line, m < place) →
      ∀ c, .told c ∈ (follow react depth q place s).1 →
        Unfolds react levels c (follow react depth q place s).1)
    {listener place : Nat} {s : Stage τ ℓ η} (hline : ∀ m ∈ p.line, m < place) {c : Call τ ℓ η}
    (hc : .told c ∈ (hear react (follow react depth) p listener place s).1) :
    Unfolds react levels c (hear react (follow react depth) p listener place s).1 := by
  let call : Call τ ℓ η := ⟨place, p, listener, s⟩
  rcases List.mem_cons.1 hc with hc | hc
  · obtain rfl : c = call := Entry.told.inj hc
    exact ⟨hline, depth, [], [], hdepth, by simp [hear, call], by simp⟩
  rcases List.mem_append.1 hc with hc | hc
  · obtain ⟨q, -, hq⟩ := List.mem_map.1 hc
    cases hq
  have hids : ∀ q ∈ call.postings react, ∀ m ∈ q.line,
      m < call.place + 1 + (call.postings react).length := by
    intro q hq m hm
    obtain ⟨-, -, habove, -, hid⟩ := call.of_mem_postings react hq
    rw [Posting.line, habove] at hm
    rcases List.mem_append.1 hm with hm | hm
    · have := hline m hm
      have hplace : call.place = place := rfl
      omega
    · rw [List.mem_singleton.1 hm]
      exact hid
  have hbelow : Unfolds react levels c (below react (follow react depth) call).1 := by
    refine Unfolds.inTurn (placed_follow react depth) (along_follow react depth) hids
      (fun q hq place' s' hplace' => hfollow q place' s' ?_ ?_ c) hc
    · have hlength : q.depth = p.depth + 1 := call.depth_of_mem_postings react hq
      omega
    · exact fun m hm => Nat.lt_of_lt_of_le (hids q hq m hm) hplace'
  have hwhole := hbelow.extend (.told call :: (call.postings react).map .posted) []
    (placed_inTurn (placed_follow react depth) _ _ _) fun x hx m hm => ?_
  · simpa [hear, call] using hwhole
  · have hm : m ∈ p.line := by
      rw [List.append_nil] at hx
      rcases List.mem_cons.1 hx with rfl | hx
      · exact hm
      · obtain ⟨q, hq, rfl⟩ := List.mem_map.1 hx
        obtain ⟨-, -, habove, -, -⟩ := call.of_mem_postings react hq
        rwa [Entry.line, habove] at hm
    have := hline m hm
    have hplace : call.place = place := rfl
    left
    omega

/-- **Every call in a delivery** unfolds. -/
theorem unfolds_follow {depth levels : Nat} {p : Posting} {place : Nat} {s : Stage τ ℓ η}
    (hdepth : p.depth + depth = levels) (hline : ∀ m ∈ p.line, m < place) {c : Call τ ℓ η}
    (hc : .told c ∈ (follow react depth p place s).1) :
    Unfolds react levels c (follow react depth p place s).1 := by
  induction depth generalizing p place s c with
  | zero => cases List.mem_singleton.1 hc
  | succ depth ih =>
    exact Unfolds.inTurn (placed_hear react (placed_follow react depth) p)
      (along_hear react (along_follow react depth) p) (fun _ _ => hline)
      (fun listener _ place' s' hplace' => unfolds_hear react (by omega)
        (fun q place s hq hq' c => ih hq hq')
        (fun m hm => Nat.lt_of_lt_of_le (hline m hm) hplace')) hc

/-! ## What the owner of the bus does -/

theorem along_carryOut (act : Act τ ℓ) (place : Nat) (s : Stage τ ℓ η) :
    ∀ x ∈ (carryOut react act place s).1,
      x.IsAlong [] place (place + (carryOut react act place s).1.length) := by
  intro x hx
  cases act with
  | listen _ => cases hx
  | post event connections =>
    rcases List.mem_cons.1 hx with rfl | hx
    · exact ⟨[], rfl, by simp⟩
    · obtain ⟨more, hline, hmore⟩ := along_follow react maxDepth _ _ _ x hx
      refine ⟨place :: more, hline, fun m hm => ?_⟩
      simp only [carryOut, List.length_cons]
      rcases List.mem_cons.1 hm with rfl | hm
      · omega
      · have := hmore m hm
        omega

/-- **Every call** unfolds. -/
theorem unfolds_carryOut {act : Act τ ℓ} {place : Nat} {s : Stage τ ℓ η} {c : Call τ ℓ η}
    (hc : .told c ∈ (carryOut react act place s).1) :
    Unfolds react maxDepth c (carryOut react act place s).1 := by
  cases act with
  | listen _ => cases hc
  | post event connections =>
    let p : Posting := { event, id := place }
    have hc : .told c ∈ (follow react maxDepth p (place + 1) { s with connections }).1 := by
      simpa [carryOut] using hc
    have hpart : Unfolds react maxDepth c _ :=
      unfolds_follow react (by simp [p, Posting.depth]) (by simp [p, Posting.line]) hc
    have hwhole := hpart.extend [.posted p] [] (placed_follow _ _ _ _ _)
      (by simp [Entry.line, p])
    simpa [carryOut] using hwhole

end

end Observatory.Bus
