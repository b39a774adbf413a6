import Observatory.Proofs.Bus.DepthFirst
/-!
# A bus at work

The owner of a bus adds listeners and posts events, as often as it likes. The logs of all that,
one behind the other, are the log of the bus.

* `Bus.unfolds_run`, `Bus.replays_run` — the whole log is made of calls and what they provoke.
* `Bus.Unfolds.of_between` — what happens between a call and the delivery of an event that it
  posted was posted in that call or after it.
* `Bus.id_le_of_outside` — after an event that comes from outside nothing earlier is delivered.
-/

namespace Observatory.Bus

variable {τ ℓ η : Type} (react : React τ ℓ η)

/-- All that the owner of a bus does, with its log. -/
def run (acts : List (Act τ ℓ)) (s : Stage τ ℓ η) : List (Entry τ ℓ η) × Stage τ ℓ η :=
  inTurn (carryOut react) acts 0 s

/-! ## One call -/

section
variable {react} {c : Call τ ℓ η} {x x' : ℓ}

/-- A call changes nobody but the listener that is told. -/
theorem getElem?_after_of_ne {index : Nat} (h : c.listener ≠ index) :
    (c.after react).listeners[index]? = c.before.listeners[index]? := by
  unfold Call.after tell
  split
  · rfl
  · exact List.getElem?_set_ne h

theorem events_of_getElem? (h : c.before.listeners[c.listener]? = some x) :
    c.events react = ((react x c.posting.event).run c.before.connections).posted := by
  rw [Call.events, tell_of_getElem? react h]

theorem getElem?_after (h : c.before.listeners[c.listener]? = some x) :
    (c.after react).listeners[c.listener]? =
      some ((react x c.posting.event).run c.before.connections).result := by
  obtain ⟨hlt, -⟩ := List.getElem?_eq_some_iff.1 h
  rw [Call.after, tell_of_getElem? react h]
  exact List.getElem?_set_self hlt

end

/-! ## The log of a bus -/

section
variable {react} {acts : List (Act τ ℓ)} {s : Stage τ ℓ η}

theorem placed_run : Placed 0 (run react acts s).1 :=
  placed_inTurn (placed_carryOut react) acts 0 s

/-- **Every call of a bus** unfolds. -/
theorem unfolds_run {c : Call τ ℓ η} (hc : .told c ∈ (run react acts s).1) :
    Unfolds react maxDepth c (run react acts s).1 :=
  Unfolds.inTurn (placed_carryOut react) (along_carryOut react) (fun _ _ _ hm => nomatch hm)
    (fun _ _ _ _ _ hc => unfolds_carryOut react hc) hc

/-- **The calls of a bus** are all that it does; besides, its owner may add listeners. -/
theorem replays_run :
    Replays react (fun s s' => s.listeners <+: s'.listeners) s (run react acts s).1
      (run react acts s).2 := by
  refine replays_inTurn react _ (fun act place s => ?_) acts 0 s
  cases act with
  | listen listener => exact .between (List.prefix_append _ _) (.nil _)
  | post event connections =>
    have hdelivery := replays_follow react (fun s s' => s.listeners <+: s'.listeners) maxDepth
      { event, id := place } (place + 1) { s with connections }
    have hpost : Replays react _ { s with connections }
        (carryOut react (.post event connections) place s).1
        (carryOut react (.post event connections) place s).2 := .other rfl hdelivery
    exact Replays.between (show s.listeners <+: Stage.listeners { s with connections } from
      List.prefix_refl _) hpost

theorem posted_of_told_run {c : Call τ ℓ η} (hc : .told c ∈ (run react acts s).1) :
    .posted c.posting ∈ (run react acts s).1 := by
  obtain ⟨act, -, place, s', -, hmem, hsub, -⟩ :=
    exists_of_mem_inTurn (P := fun _ => True) (fun _ _ _ _ => trivial) trivial hc
  cases act with
  | listen _ => cases hmem
  | post event connections => exact hsub (posted_of_told_carryOut react hmem)

/-- What a listener posted was posted in a call to it. -/
theorem exists_call_of_poster {p : Posting} {listener : Nat} (hp : .posted p ∈ (run react acts s).1)
    (hposter : p.poster = some listener) :
    ∃ c, .told c ∈ (run react acts s).1 ∧ c.listener = listener ∧ p ∈ c.postings react := by
  obtain ⟨act, -, place, s', -, hmem, hsub, -⟩ :=
    exists_of_mem_inTurn (P := fun _ => True) (fun _ _ _ _ => trivial) trivial hp
  cases act with
  | listen _ => cases hmem
  | post event connections =>
    rcases (posted_iff_carryOut react p).1 hmem with rfl | ⟨c, hc, hp⟩
    · cases hposter
    · obtain ⟨-, hposter', -⟩ := c.of_mem_postings react hp
      exact ⟨c, hsub hc, Option.some.inj (hposter'.symm.trans hposter), hp⟩

/-- Two calls with events that were posted at one place are about one event. -/
theorem posting_eq_of_id {c c' : Call τ ℓ η} (hc : .told c ∈ (run react acts s).1)
    (hc' : .told c' ∈ (run react acts s).1) (hid : c.posting.id = c'.posting.id) :
    c.posting = c'.posting :=
  Entry.posted.inj
    (placed_run.eq_of_place (posted_of_told_run hc) (posted_of_told_run hc') hid)

end

/-! ## Before and after -/

section
variable {react} {log : List (Entry τ ℓ η)} {c x y : Call τ ℓ η}

/-- What comes after a call in the log is what the call provokes, and then what is about other
events. -/
theorem Unfolds.after {levels place : Nat} (h : Unfolds react levels c log)
    (hplaced : Placed place log) : ∃ (depth : Nat) (rest : List (Entry τ ℓ η)),
      (∀ x : Call τ ℓ η, .told x ∈ log → c.place < x.place →
        .told x ∈ (below react (follow react depth) c).1 ∨ .told x ∈ rest) ∧
      (∀ x ∈ (below react (follow react depth) c).1, ∀ y ∈ rest, x.place < y.place) ∧
      ∀ x ∈ rest, ∀ q ∈ c.postings react, q.id ∉ x.line := by
  obtain ⟨-, depth, before, rest, -, rfl, hclear⟩ := h
  refine ⟨depth, rest, fun x hx hcx => ?_, fun x hx y hy => ?_,
    fun x hx => hclear x (List.mem_append_right _ hx)⟩
  · rcases List.mem_append.1 (hplaced.mem_after hx hcx) with hx | hx
    · rcases List.mem_append.1 hx with hx | hx
      · obtain ⟨q, -, hq⟩ := List.mem_map.1 hx
        cases hq
      · exact .inl hx
    · exact .inr hx
  · simp only [← List.cons_append, ← List.append_assoc] at hplaced
    exact hplaced.place_lt (List.mem_append_right _ hx) hy

/-- **What happens between a call and the delivery of an event that it posted** is about events
posted in that call or after it. -/
theorem Unfolds.of_between {levels place : Nat} (h : Unfolds react levels c log)
    (hplaced : Placed place log) (hx : .told x ∈ log) (hy : .told y ∈ log)
    (hq : y.posting ∈ c.postings react) (hcx : c.place < x.place) (hxy : x.place < y.place) :
    x.posting ∈ c.postings react ∨ ∀ q ∈ c.postings react, q.id < x.posting.id := by
  obtain ⟨depth, rest, hafter, horder, hclear⟩ := h.after hplaced
  have hybelow : .told y ∈ (below react (follow react depth) c).1 :=
    (hafter y hy (Nat.lt_trans hcx hxy)).resolve_right fun hrest =>
      hclear _ hrest _ hq y.posting.id_mem_line
  have hxbelow : .told x ∈ (below react (follow react depth) c).1 :=
    (hafter x hx hcx).resolve_right fun hrest =>
      Nat.lt_asymm hxy (horder _ hybelow _ hrest)
  obtain ⟨q, hq, place', s', -, hmem, -, hlow, -⟩ :=
    exists_of_mem_inTurn (P := fun _ => True) (fun _ _ _ _ => trivial) trivial hxbelow
  rcases isSourced_follow react _ hmem with heq | hposted
  · exact .inl (heq ▸ hq)
  · right
    intro q' hq'
    have hid := ((placed_follow react depth q place' s').bounds hposted).1
    obtain ⟨-, -, -, -, hid'⟩ := c.of_mem_postings react hq'
    exact Nat.lt_of_lt_of_le hid' (Nat.le_trans hlow hid)

/-- In what an owner does nothing is delivered that was posted before. -/
theorem place_le_of_told_carryOut {act : Act τ ℓ} {place : Nat} {s : Stage τ ℓ η}
    (hc : .told c ∈ (carryOut react act place s).1) : place ≤ c.posting.id := by
  cases act with
  | listen _ => cases hc
  | post event connections =>
    exact ((placed_carryOut react _ _ _).bounds (posted_of_told_carryOut react hc)).1

/-- What comes from outside is the first thing that is done about it. -/
theorem id_eq_of_told_carryOut {act : Act τ ℓ} {place : Nat} {s : Stage τ ℓ η}
    (hc : .told c ∈ (carryOut react act place s).1) (houtside : c.posting.poster = none) :
    c.posting.id = place := by
  cases act with
  | listen _ => cases hc
  | post event connections =>
    rcases (posted_iff_carryOut react c.posting).1 (posted_of_told_carryOut react hc)
      with heq | ⟨c', -, hposted⟩
    · rw [heq]
    · obtain ⟨-, hposter, -⟩ := c'.of_mem_postings react hposted
      cases hposter.symm.trans houtside

/-- **After an event that comes from outside** nothing is delivered that was posted before it. -/
theorem id_le_of_outside {acts : List (Act τ ℓ)} {s : Stage τ ℓ η}
    (hx : .told x ∈ (run react acts s).1) (hy : .told y ∈ (run react acts s).1)
    (houtside : x.posting.poster = none) (hxy : x.place < y.place) :
    x.posting.id ≤ y.posting.id := by
  have hplaced : Placed 0 (run react acts s).1 := placed_run
  obtain ⟨acts₁, act, acts₂, s₁, rfl, -, hlog, hmem⟩ :=
    inTurn_split (P := fun _ => True) (fun _ _ _ _ => trivial) trivial hx
  rw [id_eq_of_told_carryOut hmem houtside]
  unfold run at hplaced hy
  rw [hlog] at hplaced hy
  rcases List.mem_append.1 hy with hy | hy
  · rcases List.mem_append.1 hy with hy | hy
    · have hlt : y.place < x.place := hplaced.of_append.1.place_lt hy hmem
      omega
    · exact place_le_of_told_carryOut hy
  · obtain ⟨act', -, place', s', -, hmem', -, hlow, -⟩ :=
      exists_of_mem_inTurn (P := fun _ => True) (fun _ _ _ _ => trivial) trivial hy
    have hle := place_le_of_told_carryOut hmem'
    omega

end

end Observatory.Bus
