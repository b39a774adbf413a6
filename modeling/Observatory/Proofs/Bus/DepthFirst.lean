import Observatory.Proofs.Bus.Log
/-!
# Depth-first delivery

Whatever the listeners do with the events that they hear of, an event reaches each of them once, in
the order in which they were added. What a listener posts is delivered, with all that it provokes,
right after the listener returned and before the next one hears of the event. Down to a certain
depth, that is: what is posted on the last level is dropped.

* `Bus.Call.IsReaction` — a call is the reaction of a listener, carried out.
* `Bus.filterMap_heard_follow` — one event reaches every listener in turn.
* `Bus.Entry.IsSourced` — nothing is delivered that was not posted.
* `Bus.Unfolds.turn` — the delivery of one event that was posted in a call.
* `Bus.delivered_depthFirst` — a whole delivery.
-/

namespace Observatory.Bus

variable {τ ℓ η : Type} (react : React τ ℓ η)

/-! ## One call -/

theorem tell_of_getElem? {index : Nat} {s : Stage τ ℓ η} {x : ℓ}
    (h : s.listeners[index]? = some x) (event : Event) : tell react event index s =
      let r := (react x event).run s.connections
      (r.posted, ⟨s.listeners.set index r.result, r.connections, s.journal ++ r.notes⟩) := by
  unfold tell
  rw [h]

/-- **A call** carries out the reaction of a listener that is there. The events of the reaction are
posted; the call leaves the result of it in the listener's place, the connections as the reaction
left them, and its notes in the journal. -/
def Call.IsReaction (c : Call τ ℓ η) : Prop :=
  ∃ x, c.before.listeners[c.listener]? = some x ∧
    let r := (react x c.posting.event).run c.before.connections
    (c.postings react).map (·.event) = r.posted ∧
      c.after react = ⟨c.before.listeners.set c.listener r.result, r.connections,
        c.before.journal ++ r.notes⟩

theorem Call.isReaction {c : Call τ ℓ η} (h : c.listener < c.before.listeners.length) :
    c.IsReaction react := by
  have htell := tell_of_getElem? react (List.getElem?_eq_getElem h) c.posting.event
  refine ⟨_, List.getElem?_eq_getElem h, ?_, congrArg Prod.snd htell⟩
  rw [map_event_postings]
  exact congrArg Prod.fst htell

/-! ## The listeners stay -/

theorem length_after (c : Call τ ℓ η) :
    (c.after react).listeners.length = c.before.listeners.length := by
  unfold Call.after tell
  split
  · rfl
  · simp

/-- All along a delivery there are as many listeners. -/
theorem length_listeners_follow (depth : Nat) (p : Posting) (place : Nat) (s : Stage τ ℓ η) :
    (follow react depth p place s).2.listeners.length = s.listeners.length ∧
      ∀ c, .told c ∈ (follow react depth p place s).1 →
        c.before.listeners.length = s.listeners.length :=
  (replays_follow react Eq depth p place s).keeps
    (P := fun t => t.listeners.length = s.listeners.length) (by rintro t _ rfl ht; exact ht)
    (fun c _ hc => (length_after react c).trans hc) rfl

/-! ## Nothing is delivered that was not posted -/

/-- An event is delivered only if it was posted, and a listener posted it in a call. It is dropped
only so many levels deep. -/
def Entry.IsSourced (levels : Nat) (p : Posting) (log : List (Entry τ ℓ η)) : Entry τ ℓ η → Prop
  | .posted q => ∃ c, .told c ∈ log ∧ q ∈ c.postings react
  | .told c => c.posting = p ∨ .posted c.posting ∈ log
  | .dropped _ q => q.depth = levels ∧ (q = p ∨ .posted q ∈ log)

variable {react}

theorem Entry.IsSourced.mono {levels : Nat} {p : Posting} {log log' : List (Entry τ ℓ η)}
    {x : Entry τ ℓ η} (h : x.IsSourced react levels p log) (hsub : log ⊆ log') :
    x.IsSourced react levels p log' := by
  cases x with
  | posted q =>
    obtain ⟨c, hc, hq⟩ := h
    exact ⟨c, hsub hc, hq⟩
  | told c => exact h.imp_right fun hmem => hsub hmem
  | dropped place q => exact h.imp_right fun hsource => hsource.imp_right fun hmem => hsub hmem

/-- What comes from an event that was posted comes from the event in whose delivery it was. -/
theorem Entry.IsSourced.of_posted {levels : Nat} {p q : Posting} {log log' : List (Entry τ ℓ η)}
    {x : Entry τ ℓ η} (h : x.IsSourced react levels q log) (hsub : log ⊆ log')
    (hq : .posted q ∈ log') : x.IsSourced react levels p log' := by
  cases x with
  | posted r =>
    obtain ⟨c, hc, hr⟩ := h
    exact ⟨c, hsub hc, hr⟩
  | told c =>
    rcases h with h | h
    · exact .inr (h ▸ hq)
    · exact .inr (hsub h)
  | dropped place r =>
    obtain ⟨hdepth, h | h⟩ := h
    · exact ⟨hdepth, .inr (h ▸ hq)⟩
    · exact ⟨hdepth, .inr (hsub h)⟩

variable (react)

/-- **Nothing is delivered that was not posted**, and nothing is dropped before its time. -/
theorem isSourced_follow {depth : Nat} {p : Posting} {place : Nat} {s : Stage τ ℓ η} :
    ∀ x ∈ (follow react depth p place s).1,
      x.IsSourced react (p.depth + depth) p (follow react depth p place s).1 := by
  induction depth generalizing p place s with
  | zero =>
    intro x hx
    rw [List.mem_singleton.1 hx]
    exact ⟨rfl, .inl rfl⟩
  | succ depth ih =>
    intro x hx
    obtain ⟨listener, -, place', s', -, hhear, hsub, -⟩ :=
      exists_of_mem_inTurn (P := fun _ => True) (fun _ _ _ _ => trivial) trivial hx
    refine Entry.IsSourced.mono ?_ hsub
    let c : Call τ ℓ η := ⟨place', p, listener, s'⟩
    have hposted (q : Posting) (hq : q ∈ c.postings react) :
        .posted q ∈ (hear react (follow react depth) p listener place' s').1 :=
      List.mem_cons_of_mem _ (List.mem_append_left _ (List.mem_map_of_mem hq))
    rcases List.mem_cons.1 hhear with rfl | hhear
    · exact .inl rfl
    rcases List.mem_append.1 hhear with hmem | hbelow
    · obtain ⟨q, hq, rfl⟩ := List.mem_map.1 hmem
      exact ⟨c, List.mem_cons_self, hq⟩
    · obtain ⟨q, hq, place'', s'', -, hmem, hsub', -⟩ :=
        exists_of_mem_inTurn (P := fun _ => True) (fun _ _ _ _ => trivial) trivial hbelow
      have hlevels : q.depth + depth = p.depth + (depth + 1) := by
        rw [c.depth_of_mem_postings react hq]
        show p.depth + 1 + depth = _
        omega
      refine (hlevels ▸ ih x hmem).of_posted (List.Subset.trans hsub' fun y hy => ?_) (hposted q hq)
      exact List.mem_cons_of_mem _ (List.mem_append_right _ hy)

/-! ## Who is told -/

theorem Entry.line_of_heard {p : Posting} {x : Entry τ ℓ η} {listener : Nat}
    (h : x.heard p = some listener) : x.line = p.line := by
  cases x with
  | posted _ => cases h
  | dropped _ _ => cases h
  | told c =>
    simp only [heard] at h
    by_cases hposting : c.posting = p
    · exact congrArg Posting.line hposting
    · rw [if_neg hposting] at h
      cases h

/-- Where an event does not come up, nobody is told of it. -/
theorem filterMap_heard_of_clear {p : Posting} {log : List (Entry τ ℓ η)}
    (h : ∀ x ∈ log, x.line ≠ p.line) : log.filterMap (Entry.heard p) = [] := by
  refine List.filterMap_eq_nil_iff.2 fun x hx => ?_
  cases hheard : x.heard p with
  | none => rfl
  | some listener => exact absurd (Entry.line_of_heard hheard) (h x hx)

/-- Who is told of an event is told in the delivery of that event. -/
theorem filterMap_heard_filter_belongs (p : Posting) (log : List (Entry τ ℓ η)) :
    (log.filter (Entry.belongs p)).filterMap (Entry.heard p) = log.filterMap (Entry.heard p) := by
  rw [List.filterMap_filter]
  refine List.filterMap_congr fun x _ => ?_
  cases hheard : x.heard p with
  | none => exact ite_self _
  | some listener =>
    refine if_pos (decide_eq_true ?_)
    rw [Entry.line_of_heard hheard]
    exact p.id_mem_line

/-- **One event** reaches every listener, in the order of the listeners. -/
theorem filterMap_heard_follow (depth : Nat) (p : Posting) (place : Nat) (s : Stage τ ℓ η) :
    (follow react (depth + 1) p place s).1.filterMap (Entry.heard p) =
      List.range s.listeners.length := by
  unfold follow
  generalize List.range s.listeners.length = listeners
  induction listeners generalizing place s with
  | nil => rfl
  | cons listener listeners ih =>
    let c : Call τ ℓ η := ⟨place, p, listener, s⟩
    have hmarks : ((c.postings react).map fun q => (.posted q : Entry τ ℓ η)).filterMap
        (Entry.heard p) = [] := by
      rw [List.filterMap_map]
      exact List.filterMap_eq_nil_iff.2 fun _ _ => rfl
    -- what the listener provokes is about events that have this one above them
    have hbelow : (below react (follow react depth) c).1.filterMap (Entry.heard p) = [] := by
      refine filterMap_heard_of_clear fun x hx hline => ?_
      obtain ⟨q, hq, place', s', -, hmem, -⟩ :=
        exists_of_mem_inTurn (P := fun _ => True) (fun _ _ _ _ => trivial) trivial hx
      obtain ⟨-, -, habove, -, -⟩ := c.of_mem_postings react hq
      obtain ⟨more, hmore, -⟩ := along_follow react depth q place' s' x hmem
      have hlength := congrArg List.length (hmore.symm.trans hline)
      rw [List.length_append, Posting.line, habove, List.length_append] at hlength
      simp only [List.length_singleton, Posting.length_line, c] at hlength
      omega
    have hhear : (hear react (follow react depth) p listener place s).1.filterMap (Entry.heard p) =
        [listener] := by
      unfold hear
      rw [List.filterMap_cons_some (b := listener) (by simp [Entry.heard]), List.filterMap_append,
        hmarks, hbelow]
      rfl
    simp only [inTurn]
    rw [List.filterMap_append, hhear, ih]
    rfl

/-! ## The events that a call posts -/

/-- What every turn leaves, if one can say it of each. -/
theorem inTurn_eq_flatMap {α : Type}
    {f : α → Nat → Stage τ ℓ η → List (Entry τ ℓ η) × Stage τ ℓ η}
    {g : α → List (Entry τ ℓ η)} {xs : List α} {place : Nat} {s : Stage τ ℓ η}
    (h : ∀ xs₁ x xs₂, xs = xs₁ ++ x :: xs₂ →
      (f x (place + (inTurn f xs₁ place s).1.length) (inTurn f xs₁ place s).2).1 = g x) :
    (inTurn f xs place s).1 = xs.flatMap g := by
  induction xs generalizing place s with
  | nil => rfl
  | cons x xs ih =>
    rw [List.flatMap_cons, ← ih, ← h [] x xs rfl]
    · rfl
    · rintro xs₁ y xs₂ rfl
      rw [← h (x :: xs₁) y xs₂ rfl]
      simp only [inTurn, List.length_append, Nat.add_assoc]

/-- The delivery of an event belongs to it. -/
theorem filter_belongs_follow (depth : Nat) (q : Posting) (place : Nat) (s : Stage τ ℓ η) :
    (follow react depth q place s).1.filter (Entry.belongs q) =
      (follow react depth q place s).1 := by
  refine List.filter_eq_self.2 fun x hx => decide_eq_true ?_
  obtain ⟨more, hline, -⟩ := along_follow react depth q _ _ x hx
  rw [hline]
  exact List.mem_append_left _ q.id_mem_line

/-- The deliveries of the other events that a call posts are about those, and events posted
later. -/
theorem filter_belongs_others {depth : Nat} {c : Call τ ℓ η} {q : Posting} {rs : List Posting}
    {place : Nat} {s : Stage τ ℓ η} (hline : ∀ m ∈ c.posting.line, m < c.place)
    (hq : q ∈ c.postings react) (hplace : c.place + 1 + (c.postings react).length ≤ place)
    (hrs : ∀ r ∈ rs, r ∈ c.postings react ∧ r ≠ q) :
    (inTurn (follow react depth) rs place s).1.filter (Entry.belongs q) = [] := by
  refine List.filter_eq_nil_iff.2 fun x hx hbelongs => ?_
  obtain ⟨-, -, -, hid, hid'⟩ := c.of_mem_postings react hq
  obtain ⟨r, hr, place', s', -, hx', -, hlow, -⟩ :=
    exists_of_mem_inTurn (P := fun _ => True) (fun _ _ _ _ => trivial) trivial hx
  obtain ⟨hr, hne⟩ := hrs r hr
  obtain ⟨-, -, habove, -, -⟩ := c.of_mem_postings react hr
  rcases (along_follow react depth r place' s' x hx').of_mem_line (of_decide_eq_true hbelongs)
    with hmem | hmem
  · rw [Posting.line, habove] at hmem
    rcases List.mem_append.1 hmem with hmem | hmem
    · have hearlier := hline _ hmem
      omega
    · exact hne (c.eq_of_id react hr hq (List.mem_singleton.1 hmem).symm)
  · omega

/-- **The delivery of one of the events that a call posts** is all of what the call provokes that
belongs to it. -/
theorem filter_belongs_below {depth : Nat} {c : Call τ ℓ η} {qs₁ qs₂ : List Posting} {q : Posting}
    (hqs : c.postings react = qs₁ ++ q :: qs₂) (hline : ∀ m ∈ c.posting.line, m < c.place) :
    let place := c.place + 1 + (c.postings react).length
    let earlier := inTurn (follow react depth) qs₁ place (c.after react)
    (below react (follow react depth) c).1.filter (Entry.belongs q) =
      (follow react depth q (place + earlier.1.length) earlier.2).1 := by
  intro place earlier
  have hnodup : q ∉ qs₁ ++ qs₂ :=
    (List.nodup_cons.1 (List.nodup_middle.1 (hqs ▸ c.nodup_postings react))).1
  have hmem (r : Posting) (hr : r ∈ qs₁ ++ q :: qs₂) : r ∈ c.postings react := hqs ▸ hr
  have hrest (r : Posting) (hr : r ∈ qs₁ ++ qs₂) : r ∈ c.postings react ∧ r ≠ q := by
    refine ⟨hmem r (List.perm_middle.mem_iff.2 (List.mem_cons_of_mem q hr)), ?_⟩
    rintro rfl
    exact hnodup hr
  have hq : q ∈ c.postings react := hmem q (by simp)
  have hfirst : (inTurn (follow react depth) qs₁ place (c.after react)).1.filter
      (Entry.belongs q) = [] :=
    filter_belongs_others react hline hq (Nat.le_refl _) fun r hr =>
      hrest r (List.mem_append_left _ hr)
  unfold below
  rw [hqs, inTurn_append, List.filter_append, ← hqs, hfirst, List.nil_append]
  show (_ ++ _ : List (Entry τ ℓ η)).filter _ = _
  rw [List.filter_append, filter_belongs_follow, filter_belongs_others react hline hq,
    List.append_nil]
  · exact Nat.le_trans (Nat.le_add_right _ _) (Nat.le_add_right _ _)
  · exact fun r hr => hrest r (List.mem_append_right _ hr)

variable {react}

/-- **One of the events that a call posts**: its delivery is all of the log that belongs to it. -/
theorem Unfolds.turn {levels : Nat} {c : Call τ ℓ η} {log : List (Entry τ ℓ η)}
    (h : Unfolds react levels c log) : ∃ depth before rest, c.posting.depth + depth + 1 = levels ∧
      log = before ++ .told c :: ((c.postings react).map .posted ++
        (below react (follow react depth) c).1 ++ rest) ∧
      ∀ qs₁ q qs₂, c.postings react = qs₁ ++ q :: qs₂ →
        let place := c.place + 1 + (c.postings react).length
        let earlier := Bus.inTurn (follow react depth) qs₁ place (c.after react)
        log.filter (Entry.belongs q) =
          (follow react depth q (place + earlier.1.length) earlier.2).1 := by
  obtain ⟨hline, depth, before, rest, hlevels, hlog, hclear⟩ := h
  refine ⟨depth, before, rest, hlevels, hlog, fun qs₁ q qs₂ hqs => ?_⟩
  have hq : q ∈ c.postings react := by simp [hqs]
  obtain ⟨-, -, -, hid, -⟩ := c.of_mem_postings react hq
  have hcall : (.told c :: (c.postings react).map .posted : List (Entry τ ℓ η)).filter
      (Entry.belongs q) = [] := by
    refine List.filter_eq_nil_iff.2 fun x hx hbelongs => ?_
    have hmem : q.id ∈ c.posting.line := by
      rcases List.mem_cons.1 hx with rfl | hx
      · exact of_decide_eq_true hbelongs
      · obtain ⟨r, hr, rfl⟩ := List.mem_map.1 hx
        obtain ⟨-, -, habove, -, -⟩ := c.of_mem_postings react hr
        exact habove ▸ of_decide_eq_true hbelongs
    have := hline _ hmem
    omega
  have hout {es : List (Entry τ ℓ η)} (hes : ∀ x ∈ es, x ∈ before ++ rest) :
      es.filter (Entry.belongs q) = [] :=
    List.filter_eq_nil_iff.2 fun x hx hbelongs =>
      hclear x (hes x hx) q hq (of_decide_eq_true hbelongs)
  have hbefore : before.filter (Entry.belongs q) = [] := hout fun x hx => by simp [hx]
  have hrest : rest.filter (Entry.belongs q) = [] := hout fun x hx => by simp [hx]
  refine Eq.trans ?_ (filter_belongs_below react hqs hline)
  rw [hlog, ← List.cons_append, ← List.cons_append, List.filter_append, List.filter_append,
    List.filter_append, hbefore, hcall, hrest]
  simp

/-- What a call provokes, event by event. -/
theorem Unfolds.provoked {levels : Nat} {c : Call τ ℓ η} {log : List (Entry τ ℓ η)}
    (h : Unfolds react levels c log) : ∃ before rest, log = before ++ .told c ::
      ((c.postings react).map .posted ++
        (c.postings react).flatMap (fun q => log.filter (Entry.belongs q)) ++ rest) := by
  obtain ⟨depth, before, rest, -, hlog, hturn⟩ := h.turn
  have hbelow : (below react (follow react depth) c).1 =
      (c.postings react).flatMap fun q => log.filter (Entry.belongs q) :=
    inTurn_eq_flatMap fun qs₁ q qs₂ hqs => (hturn qs₁ q qs₂ hqs).symm
  exact ⟨before, rest, hbelow ▸ hlog⟩

/-- The delivery of an event that a call posts starts from as many listeners. -/
theorem Unfolds.delivery {levels : Nat} {c : Call τ ℓ η} {log : List (Entry τ ℓ η)}
    (h : Unfolds react levels c log) {q : Posting} (hq : q ∈ c.postings react) :
    ∃ depth place s, q.depth + depth = levels ∧
      s.listeners.length = c.before.listeners.length ∧
      log.filter (Entry.belongs q) = (follow react depth q place s).1 := by
  obtain ⟨depth, -, -, hlevels, -, hturn⟩ := h.turn
  obtain ⟨qs₁, qs₂, hqs⟩ := List.append_of_mem hq
  refine ⟨depth, _, _, ?_, ?_, hturn qs₁ q qs₂ hqs⟩
  · rw [c.depth_of_mem_postings react hq]
    omega
  · exact inTurn_keeps (P := fun t => t.listeners.length = c.before.listeners.length)
      (fun q place t ht => (length_listeners_follow react depth q place t).1.trans ht) _ _
      (length_after react c)

/-! ## A whole delivery -/

variable (react)

/-- **Depth-first delivery** of an event to so many listeners, as the log of it shows. -/
structure IsDepthFirst (listeners : Nat) (root : Posting) (log : List (Entry τ ℓ η)) : Prop where
  placed : Placed root.id log
  /-- To tell a listener of an event is to carry out its reaction. -/
  reaction_of_told {c : Call τ ℓ η} (hc : .told c ∈ log) : c.IsReaction react
  /-- What is posted is the event itself and what the listeners post when they are told of one. -/
  posted_iff (p : Posting) : .posted p ∈ log ↔ p = root ∨ ∃ c, .told c ∈ log ∧ p ∈ c.postings react
  /-- The listeners are told only of what was posted. -/
  posted_of_told {c : Call τ ℓ η} (hc : .told c ∈ log) : .posted c.posting ∈ log
  /-- Every listener is told once of what is not posted too deep, one after another. -/
  heard {p : Posting} (hp : .posted p ∈ log) (hdepth : p.depth < maxDepth) :
    log.filterMap (Entry.heard p) = List.range listeners
  /-- What a listener posts is posted and delivered, with all that belongs to it, right after the
  listener was told, and event by event. -/
  provoked {c : Call τ ℓ η} (hc : .told c ∈ log) : ∃ before rest, log = before ++ .told c ::
    ((c.postings react).map .posted ++
      (c.postings react).flatMap (fun q => log.filter (Entry.belongs q)) ++ rest)
  /-- No listener is told of anything too deep. -/
  depth_lt {c : Call τ ℓ η} (hc : .told c ∈ log) : c.posting.depth < maxDepth
  /-- What is posted on the last level is dropped, and nothing else is. -/
  dropped_iff (p : Posting) : (∃ place, .dropped place p ∈ log) ↔
    ∃ c, .told c ∈ log ∧ c.posting.depth + 1 = maxDepth ∧ p ∈ c.postings react

variable {event : Event} {connections : Connections τ} {place : Nat} {s : Stage τ ℓ η}

/-- What comes up in the delivery of an event comes from that event. -/
theorem isSourced_carryOut {x : Entry τ ℓ η}
    (hx : x ∈ (carryOut react (.post event connections) place s).1) :
    x = .posted { event, id := place } ∨ x.IsSourced react maxDepth { event, id := place }
      (carryOut react (.post event connections) place s).1 := by
  refine (List.mem_cons.1 hx).imp_right fun hx => ?_
  have hsource := isSourced_follow react x hx
  simp only [Posting.depth, List.length_nil, Nat.zero_add] at hsource
  exact hsource.mono fun _ => List.mem_cons_of_mem _

theorem posted_of_told_carryOut {c : Call τ ℓ η}
    (hc : .told c ∈ (carryOut react (.post event connections) place s).1) :
    .posted c.posting ∈ (carryOut react (.post event connections) place s).1 := by
  rcases isSourced_carryOut react hc with heq | heq | hmem
  · cases heq
  · exact heq ▸ List.mem_cons_self
  · exact hmem

theorem posted_iff_carryOut (p : Posting) :
    .posted p ∈ (carryOut react (.post event connections) place s).1 ↔
      p = { event, id := place } ∨
        ∃ c, .told c ∈ (carryOut react (.post event connections) place s).1 ∧
          p ∈ c.postings react := by
  constructor
  · exact fun hp => (isSourced_carryOut react hp).imp_left Entry.posted.inj
  · rintro (rfl | ⟨c, hc, hp⟩)
    · exact List.mem_cons_self
    · exact (unfolds_carryOut react hc).mem.2 p hp

/-- A listener is told among as many listeners as there were at first. -/
theorem length_listeners_carryOut {c : Call τ ℓ η}
    (hc : .told c ∈ (carryOut react (.post event connections) place s).1) :
    c.before.listeners.length = s.listeners.length :=
  (length_listeners_follow react maxDepth _ _ { s with connections }).2 c
    ((List.mem_cons.1 hc).resolve_left (by simp))

theorem heard_carryOut {p : Posting}
    (hp : .posted p ∈ (carryOut react (.post event connections) place s).1)
    (hdepth : p.depth < maxDepth) :
    (carryOut react (.post event connections) place s).1.filterMap (Entry.heard p) =
      List.range s.listeners.length := by
  rcases (posted_iff_carryOut react p).1 hp with rfl | ⟨c, hc, hp⟩
  · exact filterMap_heard_follow react 31 _ _ _
  · obtain ⟨depth, place, t, hlevels, hlength, hturn⟩ := (unfolds_carryOut react hc).delivery hp
    obtain ⟨d, rfl⟩ : ∃ d, depth = d + 1 := ⟨depth - 1, by omega⟩
    rw [← filterMap_heard_filter_belongs, hturn, filterMap_heard_follow, hlength,
      length_listeners_carryOut react hc]

theorem depth_lt_of_told_carryOut {c : Call τ ℓ η}
    (hc : .told c ∈ (carryOut react (.post event connections) place s).1) :
    c.posting.depth < maxDepth := by
  obtain ⟨-, depth, -, -, hlevels, -⟩ := unfolds_carryOut react hc
  omega

/-- A listener that is told of something is one of those that were there at first. -/
theorem isReaction_of_told_carryOut {c : Call τ ℓ η}
    (hc : .told c ∈ (carryOut react (.post event connections) place s).1) :
    c.IsReaction react := by
  have hheard : c.listener ∈
      (carryOut react (.post event connections) place s).1.filterMap (Entry.heard c.posting) :=
    List.mem_filterMap.2 ⟨_, hc, if_pos rfl⟩
  rw [heard_carryOut react (posted_of_told_carryOut react hc) (depth_lt_of_told_carryOut react hc),
    List.mem_range] at hheard
  exact Call.isReaction react (length_listeners_carryOut react hc ▸ hheard)

theorem dropped_iff_carryOut (p : Posting) :
    (∃ place', .dropped place' p ∈ (carryOut react (.post event connections) place s).1) ↔
      ∃ c, .told c ∈ (carryOut react (.post event connections) place s).1 ∧
        c.posting.depth + 1 = maxDepth ∧ p ∈ c.postings react := by
  constructor
  · rintro ⟨place', hp⟩
    obtain heq | ⟨hdepth, hsource⟩ := isSourced_carryOut react hp
    · cases heq
    have hposted : .posted p ∈ (carryOut react (.post event connections) place s).1 := by
      rcases hsource with rfl | hmem
      · exact List.mem_cons_self
      · exact hmem
    rcases (posted_iff_carryOut react p).1 hposted with rfl | ⟨c, hc, hp⟩
    · cases hdepth
    · exact ⟨c, hc, (c.depth_of_mem_postings react hp).symm.trans hdepth, hp⟩
  · rintro ⟨c, hc, hdepth, hp⟩
    obtain ⟨depth, place', t, hlevels, -, hturn⟩ := (unfolds_carryOut react hc).delivery hp
    rw [c.depth_of_mem_postings react hp, hdepth] at hlevels
    obtain rfl : depth = 0 := by omega
    refine ⟨place', List.mem_of_mem_filter (p := Entry.belongs p) ?_⟩
    rw [hturn]
    exact List.mem_singleton_self _

/-- **The delivery of an event**, whatever the listeners do: all that it does is in its log, and it
goes down before it goes on. -/
theorem delivered_depthFirst (event : Event) (s : Stage τ ℓ η) :
    let root : Posting := { event, id := 0 }
    let log := (carryOut react (.post event s.connections) 0 s).1
    Replays react Eq s log (deliver react s event) ∧
      IsDepthFirst react s.listeners.length root log := by
  refine ⟨?_, placed_carryOut react _ _ _, isReaction_of_told_carryOut react,
    posted_iff_carryOut react, posted_of_told_carryOut react, heard_carryOut react,
    fun hc => (unfolds_carryOut react hc).provoked, depth_lt_of_told_carryOut react,
    dropped_iff_carryOut react⟩
  rw [deliver, ← follow_snd react maxDepth { event, id := 0 } 1]
  exact .other rfl (replays_follow react Eq _ _ _ _)

end Observatory.Bus
