import Observatory.Proofs.Connection.Converse
import Observatory.Proofs.Connection.Lifetime
import Observatory.Proofs.Connection.Reports
/-!
# The child behind a connection

A connection with a child can end in two ways that do not ask whether it is closed already: the
exit status of the child is collected, or the child runs too long. Everything else tells nothing
once the end was told. Either way the end of the child is told once.

* `Continues` — what becomes of a connection, with what it tells and whether the end came late.
* `Proceeds.continues` — nothing comes late where a connection acts by itself.
* `continues_childReturned`, `continues_idle` — the end of a child.
-/

namespace Observatory

/-- An end has no event behind it. -/
def EndsLast (history : List Event) : Prop := history.Pairwise fun e _ => e.isEnd = false

instance (history : List Event) : Decidable (EndsLast history) :=
  inferInstanceAs (Decidable (history.Pairwise _))

namespace EndsLast

theorem of_going {history : List Event} (h : ∀ e ∈ history, e.isEnd = false) :
    EndsLast history :=
  List.pairwise_iff_forall_sublist.2 fun {a _} hsub => h a (hsub.subset List.mem_cons_self)

/-- Before an end may come anything that is none. -/
theorem append {before after : List Event} (hbefore : ∀ e ∈ before, e.isEnd = false)
    (hafter : EndsLast after) : EndsLast (before ++ after) :=
  List.pairwise_append.2 ⟨of_going hbefore, hafter, fun e he _ _ => hbefore e he⟩

theorem countP_le {history : List Event} (h : EndsLast history) :
    history.countP Event.isEnd ≤ 1 := by
  induction history with
  | nil => exact Nat.zero_le 1
  | cons e rest ih =>
    obtain ⟨hhead, htail⟩ := List.pairwise_cons.1 h
    cases rest with
    | nil =>
      rw [List.countP_singleton]
      split <;> omega
    | cons next rest =>
      rw [List.countP_cons, hhead next List.mem_cons_self]
      exact ih htail

end EndsLast

namespace Connection

variable {τ σ : Type} {c d e : Connection τ} {ms ns news : List Event}

/-- There is a child, and its end was told. -/
def childOver (c : Connection τ) : Bool := c.helper.any (·.ended)

/-- What becomes of a connection, with the events that it adds; `late` ends came when it was closed
already. -/
structure Continues (late : Nat) (c : Connection τ) (news : List Event) (d : Connection τ) :
    Prop where
  id : d.id = c.id
  linked : Linked d
  events : d.events = c.events ++ news
  child : news.countP Event.isChildEnd + c.childOver.toNat = d.childOver.toNat
  ends : news.countP Event.isEnd + c.isClosed.toNat = d.isClosed.toNat + late
  stays : c.isClosed = true → d.isClosed = true
  silent : c.isClosed = true → late = 0 → news = []
  last : c.isClosed = false → late = 0 ∧ EndsLast news

/-- Nothing is told. -/
theorem Continues.of_same (hid : d.id = c.id) (hlinked : Linked d) (hstate : d.state = c.state)
    (hevents : d.events = c.events) (hover : d.childOver = c.childOver) : Continues 0 c [] d := by
  have hclosed : d.isClosed = c.isClosed := congrArg (· == .closed) hstate
  exact {
    id := hid
    linked := hlinked
    events := by rw [hevents, List.append_nil]
    child := by simp [hover]
    ends := by simp [hclosed]
    stays := fun h => hclosed.trans h
    silent := fun _ _ => rfl
    last := fun _ => ⟨rfl, .nil⟩ }

/-- As long as a connection stays open, none of its events is an end. -/
theorem Continues.going (h : Continues 0 c news d) (hopen : d.isClosed = false) :
    ∀ x ∈ news, x.isEnd = false := by
  have hends := h.ends
  rw [hopen] at hends
  have hnone : news.countP Event.isEnd = 0 := by
    simp only [Bool.toNat_false] at hends
    omega
  intro x hx
  simpa using List.countP_eq_zero.1 hnone x hx

theorem Continues.trans (h : Continues 0 c ms d) (h' : Continues 0 d ns e) :
    Continues 0 c (ms ++ ns) e where
  id := h'.id.trans h.id
  linked := h'.linked
  events := by rw [h'.events, h.events, List.append_assoc]
  child := by
    have hover := h.child
    have hover' := h'.child
    rw [List.countP_append]
    omega
  ends := by
    have hends := h.ends
    have hends' := h'.ends
    rw [List.countP_append]
    omega
  stays := fun hclosed => h'.stays (h.stays hclosed)
  silent := fun hclosed _ => by
    rw [h.silent hclosed rfl, h'.silent (h.stays hclosed) rfl, List.append_nil]
  last := fun hopen => by
    refine ⟨rfl, ?_⟩
    cases hd : d.isClosed with
    | true =>
      rw [h'.silent hd rfl, List.append_nil]
      exact (h.last hopen).2
    | false => exact .append (h.going hd) (h'.last hd).2

/-- Where nothing is told, neither the child nor the connection comes to its end. -/
theorem Continues.quiet (h : Continues 0 c [] d) :
    d.childOver = c.childOver ∧ d.isClosed = c.isClosed := by
  have hover := h.child
  have hends := h.ends
  rw [List.countP_nil, Nat.zero_add] at hover hends
  constructor
  · cases hc : c.childOver <;> cases hd : d.childOver <;> simp [hc, hd] at hover ⊢
  · cases hc : c.isClosed <;> cases hd : d.isClosed <;> simp [hc, hd] at hends ⊢

/-- What tells nothing may follow an end that came late. -/
theorem Continues.keep {late : Nat} (h : Continues late c ms d) (h' : Continues 0 d [] e) :
    Continues late c ms e where
  id := h'.id.trans h.id
  linked := h'.linked
  events := by rw [h'.events, List.append_nil, h.events]
  child := by rw [h.child, h'.quiet.1]
  ends := by rw [h.ends, h'.quiet.2]
  stays := fun hclosed => h'.stays (h.stays hclosed)
  silent := h.silent
  last := h.last

/-! ## What a connection does by itself -/

/-- The child is left alone, and no end of a child is told. -/
structure Spares (c d : Connection τ) : Prop where
  child : d.childOver = c.childOver
  events : ∃ news, d.events = c.events ++ news ∧ ∀ e ∈ news, e.isChildEnd = false

theorem Converses.spares {Q : Command → Prop} (h : Converses Q c d) : Spares c d :=
  ⟨by unfold childOver; rw [h.helper], h.events⟩

theorem Spares.refl (c : Connection τ) : Spares c c :=
  ⟨rfl, [], (List.append_nil _).symm, by simp⟩

theorem Spares.trans (h : Spares c d) (h' : Spares d e) : Spares c e := by
  obtain ⟨ms, hms, hchild⟩ := h.events
  obtain ⟨ns, hns, hchild'⟩ := h'.events
  refine ⟨h'.child.trans h.child, ms ++ ns, by rw [hns, hms, List.append_assoc], fun x hx => ?_⟩
  rcases List.mem_append.1 hx with hx | hx
  · exact hchild x hx
  · exact hchild' x hx

theorem countP_lostEvents (commands : List Queued) :
    (lostEvents commands).countP Event.isEnd = 0 ∧
      (lostEvents commands).countP Event.isChildEnd = 0 := by
  constructor <;>
  · refine List.countP_eq_zero.2 fun e he => ?_
    obtain ⟨q, -, rfl⟩ := List.mem_map.1 he
    exact Bool.false_ne_true

/-- **Acts of its own** tell nothing once the end was told. -/
theorem Proceeds.continues (h : Proceeds c d) (hc : Linked c) (hspares : Spares c d) :
    ∃ news, Continues 0 c news d := by
  obtain ⟨endings, news, hadvances⟩ := h.advances hc
  obtain ⟨acts, hperforms, -⟩ := h
  obtain ⟨news', hevents, hchild⟩ := hspares.events
  obtain rfl : news = news' := List.append_cancel_left (hadvances.events.symm.trans hevents)
  have hnone : news.countP Event.isChildEnd = 0 :=
    List.countP_eq_zero.2 fun x hx => by simp [hchild x hx]
  refine ⟨news, hadvances.id, hperforms.linked hc, hevents,
    by rw [hnone, hspares.child, Nat.zero_add], ?_, hadvances.isClosed_of,
    fun hclosed _ => (hadvances.finished hclosed).2, fun hopen => ?_⟩
  · cases hopen : c.isClosed with
    | true =>
      rw [(hadvances.finished hopen).2, hadvances.isClosed_of hopen]
      rfl
    | false =>
      cases hopen' : d.isClosed with
      | false =>
        have hgoing : news.countP Event.isEnd = 0 :=
          List.countP_eq_zero.2 fun x hx => by simp [hadvances.going hopen' x hx]
        rw [hgoing, Nat.zero_add, Nat.add_zero]
      | true =>
        obtain ⟨-, mid, done, lost, reason, rfl, -, hmid, -⟩ := hadvances.ends hopen hopen'
        have hgoing : mid.countP Event.isEnd = 0 :=
          List.countP_eq_zero.2 fun x hx => by simp [hmid x hx]
        rw [List.countP_append, List.countP_append, hgoing, (countP_lostEvents lost).1]
        rfl
  · refine ⟨rfl, ?_⟩
    cases hopen' : d.isClosed with
    | false => exact .of_going (hadvances.going hopen')
    | true =>
      obtain ⟨-, mid, done, lost, reason, rfl, -, hmid, -⟩ := hadvances.ends hopen hopen'
      refine .append (fun x hx => ?_) (List.pairwise_singleton _ _)
      rcases List.mem_append.1 hx with hx | hx
      · exact hmid x hx
      · obtain ⟨q, -, rfl⟩ := List.mem_map.1 hx
        rfl

theorem spares_finishClose (reason : CloseReason) (c : Connection τ) :
    Spares c (c.finishClose reason) :=
  (converses_finishClose (Q := fun _ => True) reason c).spares

theorem spares_writePass (T : Transport τ) (c : Connection τ) : Spares c (c.writePass T).2 := by
  refine writePass_induct (fun d link h => ?_) (fun d count h => ?_)
    (fun d reason h => h.trans (spares_finishClose reason d)) T (.refl c)
  · exact { h with }
  · exact { h with }

theorem spares_pollConnect (answer : ConnectAnswer τ) (now : Instant) (c : Connection τ) :
    Spares c (c.pollConnect answer now).2 := by
  unfold pollConnect
  split
  · next stream _ =>
    have hup : Spares c
        { c with link := .stream stream, state := .established, lastActivity := now } :=
      { Spares.refl c with }
    refine hup.trans (Converses.spares (Q := fun _ => True) ?_)
    exact (converses_emit rfl _).trans (converses_pump _)
  · exact spares_finishClose _ c
  · exact .refl c

/-- Commands tell nothing, whether they are taken in or turned away. -/
theorem continues_queueCommand (urgent : Bool) (command : Command) (hc : Linked c) :
    Continues 0 c [] (c.queueCommand urgent command).2 := by
  have hdealt : Converses (fun _ => True) c (c.queueCommand urgent command).2 :=
    converses_queueCommand trivial urgent c
  obtain ⟨hevents, hstate⟩ := events_queueCommand urgent command c
  refine .of_same hdealt.id ?_ hstate hevents hdealt.spares.child
  rcases performs_queueCommand urgent command c with
    ⟨e, h⟩ | ⟨e, d, hd, h⟩ | ⟨handle, d, hd, h⟩
  · rw [h]
    exact hc
  · rw [h]
    exact hd.linked hc
  · rw [h]
    obtain ⟨acts, hpump, -⟩ := proceeds_pump d
    exact hpump.linked (hd.linked hc)

/-- Reading the error stream changes nothing of the child but that stream. -/
theorem helper_readErrorsFor (T : Transport τ) (readings : Nat) (moved : Bool) (read : Bytes)
    (h : Helper τ) : ∃ errors, (readErrorsFor T readings moved read h).2.2 = { h with errors } := by
  induction readings generalizing moved read h with
  | zero => exact ⟨h.errors, rfl⟩
  | succ readings ih =>
    unfold readErrorsFor
    split
    · exact ⟨h.errors, rfl⟩
    · next s _ =>
      obtain ⟨answer, s'⟩ := T.read errorChunk s
      dsimp only
      split
      · exact ⟨_, rfl⟩
      · exact ⟨_, rfl⟩
      · exact ⟨_, rfl⟩
      · exact ⟨_, rfl⟩
      · exact ⟨_, rfl⟩
      · exact ih _ _ _

/-- A pass over the error stream leaves the child as it was, and reports lines of that stream. -/
theorem errorPass_eq (T : Transport τ) {h : Helper τ} (hchild : c.helper = some h) :
    ∃ errors read, (c.errorPass T).2 =
      { c with helper := some (reportErrors c.id read { h with errors }) } := by
  obtain ⟨readings, hpass⟩ : ∃ readings, (c.errorPass T).2 =
      { c with helper := some (reportErrors c.id (readErrorsFor T readings false [] h).2.1
        (readErrorsFor T readings false [] h).2.2) } := by
    unfold errorPass
    rw [hchild]
    exact ⟨_, rfl⟩
  obtain ⟨errors, herrors⟩ := helper_readErrorsFor T readings false [] h
  rw [herrors] at hpass
  exact ⟨errors, _, hpass⟩

theorem continues_errorPass (T : Transport τ) (hc : Linked c) :
    Continues 0 c [] (c.errorPass T).2 := by
  cases hchild : c.helper with
  | none =>
    unfold errorPass
    rw [hchild]
    exact .of_same rfl hc rfl rfl rfl
  | some h =>
    obtain ⟨errors, read, hpass⟩ := errorPass_eq T hchild
    rw [hpass]
    refine .of_same rfl { hc with } rfl rfl ?_
    unfold childOver
    rw [hchild]
    rfl

/-! ## The end of a child -/

/-- **The end of a child.** It is told once; when the connection was closed already, the end of the
connection is told late. -/
theorem continues_finishChild {h k : Helper τ} (hchild : c.helper = some h)
    (hended : k.ended = h.ended) (exit : ChildExit) (reason : CloseReason) :
    ∃ news, Continues c.isClosed.toNat c news ((c.endChild exit k).finishClose reason) := by
  obtain ⟨hcompletions, stats, hqueue⟩ := CommandQueue.failAll_eq connectionLost (-4) c.queue
  have hlost : (c.queue.failAll connectionLost (-4)).1.map Event.commandFailed =
      lostEvents c.queue.pending := by
    rw [hcompletions, lostEvents, List.map_map]
    rfl
  have hover : (c.endChild exit k).childOver = true := by
    unfold childOver endChild Helper.finish
    dsimp only
    split
    · next hended => exact hended
    · rfl
  let ended : List Event := if k.ended then [] else [.childEnded c.id k.pid exit]
  have hgoing : ∀ x ∈ ended, x.isEnd = false := by
    intro x hx
    by_cases hwas : k.ended = true
    · simp [ended, hwas] at hx
    · simp only [ended, hwas, if_false, List.mem_singleton, Bool.false_eq_true] at hx
      subst hx
      rfl
  have hchildEnd : ended.countP Event.isChildEnd + k.ended.toNat = 1 := by
    cases hwas : k.ended <;> simp [ended, hwas, Event.isChildEnd]
  refine ⟨ended ++ lostEvents c.queue.pending ++ [.connectionClosed c.id c.name reason], rfl,
    ⟨fun _ => rfl, by simp [finishClose], by simp [finishClose]⟩, ?_, ?_, ?_, fun _ => rfl, ?_, ?_⟩
  · rw [← hlost]
    simp only [finishClose, endChild, ended, List.append_assoc]
  · have hwas : c.childOver = k.ended := by
      unfold childOver
      rw [hchild, hended]
      rfl
    rw [List.countP_append, List.countP_append, (countP_lostEvents _).2, hwas]
    show _ + 0 + 0 + _ = (c.endChild exit k).childOver.toNat
    rw [hover]
    exact hchildEnd
  · have hnone : ended.countP Event.isEnd = 0 :=
      List.countP_eq_zero.2 fun x hx => by simp [hgoing x hx]
    rw [List.countP_append, List.countP_append, (countP_lostEvents _).1, hnone]
    rfl
  · intro hclosed hlate
    rw [hclosed] at hlate
    cases hlate
  · intro hopen
    rw [hopen]
    refine ⟨rfl, .append (fun x hx => ?_) (List.pairwise_singleton _ _)⟩
    rcases List.mem_append.1 hx with hx | hx
    · exact hgoing x hx
    · obtain ⟨q, -, rfl⟩ := List.mem_map.1 hx
      rfl

/-- The end of a child whose output has not ended is told, and nothing else. -/
theorem continues_endChild {h k : Helper τ} (hchild : c.helper = some h)
    (hended : k.ended = h.ended) (exit : ChildExit) (hc : Linked c) (hopen : c.isClosed = false) :
    ∃ news, Continues 0 c news (c.endChild exit k) := by
  refine ⟨if k.ended then [] else [.childEnded c.id k.pid exit], rfl, { hc with }, rfl, ?_, ?_,
    fun h => h, fun hclosed => ?_, fun _ => ⟨rfl, ?_⟩⟩
  · unfold childOver endChild Helper.finish
    rw [hchild]
    cases hwas : k.ended <;> simp [hwas, ← hended, Event.isChildEnd]
  · show _ + c.isClosed.toNat = c.isClosed.toNat + 0
    rw [hopen]
    cases k.ended <;> rfl
  · rw [hopen] at hclosed
    cases hclosed
  · cases k.ended with
    | true => exact .nil
    | false => exact List.pairwise_singleton _ _

/-- **The exit status is collected.** -/
theorem continues_childReturned {h : Helper τ} (hchild : c.helper = some h) (exit : ChildExit)
    (hc : Linked c) : ∃ news, Continues c.isClosed.toNat c news (c.childReturned exit) := by
  rw [childReturned_eq hchild]
  split
  · exact continues_finishChild (k := { h with reaped := true }) hchild rfl exit .childEnded
  · next hgoing =>
    have hopen : c.isClosed = false := by
      refine hc.not_closed fun hlink => hgoing ?_
      simp [hlink, Link.isDetached]
    rw [hopen]
    exact continues_endChild (k := { h with reaped := true }) hchild rfl exit hc hopen

/-- The child should have ended. -/
def isOverdue (now : Instant) (c : Connection τ) : Bool := c.helper.any (·.deadlinePassed now)

/-- **The timers.** -/
theorem continues_idle (now : Instant) (hc : Linked c) :
    ∃ news, Continues (c.isClosed && c.isOverdue now).toNat c news (c.idle now) := by
  have hdealt : ∃ news, Continues 0 c news (c.idleEstablished now) :=
    (proceeds_idleEstablished now c).continues hc
      (converses_idleEstablished (Q := fun _ => True) now c).spares
  unfold idle isOverdue
  cases hchild : c.helper with
  | none =>
    rw [Option.any_none, Bool.and_false]
    exact hdealt
  | some h =>
    rw [Option.any_some]
    dsimp only
    split
    · next hlate =>
      rw [hlate, Bool.and_true, killOverdue_eq]
      exact continues_finishChild (k := h.signal true .kill) hchild rfl .timedOut .timeout
    · next htimely =>
      rw [Bool.not_eq_true] at htimely
      rw [htimely, Bool.and_false]
      exact hdealt

end Connection

end Observatory
