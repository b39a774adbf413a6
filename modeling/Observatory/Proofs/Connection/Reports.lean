import Observatory.Connection.Idle
import Observatory.Proofs.Connection.Converse
/-!
# What is reported of a connection

Whatever becomes of a connection, nothing that it reported is taken back, and when it comes to its
end, that is reported too.

* `Reports` — what all changes of a connection have in common, until its reports are collected.
* `Proceeds.reports` — everything that a connection does by its acts.
* `reports_writePass`, `reports_pollConnect`, `reports_idle`, `reports_childReturned` — what is done
  to a connection whatever state it is in.
-/

namespace Observatory.Connection

variable {τ σ : Type}

/-- Reports are only added, and the end is among them. -/
structure Reports (c d : Connection τ) : Prop where
  id : d.id = c.id
  name : d.name = c.name
  grows : c.events <+: d.events
  ends : c.isClosed = false → d.isClosed = true →
    ∃ reason, .connectionClosed d.id d.name reason ∈ d.events

/-- The connection stays as open or as closed as it was. -/
theorem Reports.of_state {c d : Connection τ} (hid : d.id = c.id) (hname : d.name = c.name)
    (hstate : d.state = c.state) (hgrows : c.events <+: d.events) : Reports c d where
  id := hid
  name := hname
  grows := hgrows
  ends := fun hopen hclosed => by
    unfold isClosed at hopen hclosed
    rw [hstate, hopen] at hclosed
    cases hclosed

theorem Reports.refl (c : Connection τ) : Reports c c :=
  .of_state rfl rfl rfl (List.prefix_refl _)

theorem Reports.trans {c d e : Connection τ} (h : Reports c d) (h' : Reports d e) :
    Reports c e where
  id := h'.id.trans h.id
  name := h'.name.trans h.name
  grows := h.grows.trans h'.grows
  ends := fun hopen hclosed => by
    cases hd : d.isClosed with
    | false => exact h'.ends hd hclosed
    | true =>
      obtain ⟨reason, hmem⟩ := h.ends hopen hd
      rw [h'.id, h'.name]
      exact ⟨reason, h'.grows.subset hmem⟩

theorem reports_emit (e : Event) (c : Connection τ) : Reports c (c.emit e) :=
  .of_state rfl rfl rfl (List.prefix_append _ _)

/-- A connection that is closed says so, whether or not it was closed before. -/
theorem reports_finishClose (reason : CloseReason) (c : Connection τ) :
    Reports c (c.finishClose reason) where
  id := rfl
  name := rfl
  grows := ⟨_, (List.append_assoc _ _ _).symm⟩
  ends := fun _ _ => ⟨reason, List.mem_append_right _ (List.mem_singleton_self _)⟩

theorem reports_link (link : Link τ) (c : Connection τ) : Reports c { c with link } :=
  .of_state rfl rfl rfl (List.prefix_refl _)

/-! ## Acts -/

/-- **One act.** -/
theorem Does.reports {c d : Connection τ} {a : Act} (h : Does c a d) : Reports c d := by
  cases h with
  | push v =>
    rw [sendValue_eq]
    exact .of_state rfl rfl rfl (List.prefix_refl _)
  | note _ _ => exact reports_emit _ c
  | @complete q _ _ outcome code =>
    have hdone : Reports c { c with queue := (c.queue.complete outcome code).2 } :=
      .of_state rfl rfl rfl (List.prefix_refl _)
    exact hdone.trans (reports_emit _ _)
  | connect _ h =>
    subst h
    exact ⟨rfl, rfl, List.prefix_refl _, fun _ h => by cases h⟩
  | drain _ _ => exact ⟨rfl, rfl, List.prefix_refl _, fun _ h => by cases h⟩
  | close _ reason => exact reports_finishClose reason c
  | adjust h => exact .of_state h.id h.name h.state ⟨[], by rw [h.events, List.append_nil]⟩
  | _ => exact .of_state rfl rfl rfl (List.prefix_refl _)

theorem Performs.reports {c d : Connection τ} {acts : List Act} (h : Performs c acts d) :
    Reports c d := by
  induction h with
  | nil => exact .refl _
  | cons hd _ ih => exact hd.reports.trans ih

theorem Proceeds.reports {c d : Connection τ} (h : Proceeds c d) : Reports c d := by
  obtain ⟨acts, h, -⟩ := h
  exact h.reports

/-! ## Whatever the state -/

/-- Commands cause no reports. -/
theorem events_queueCommand (urgent : Bool) (command : Command) (c : Connection τ) :
    (c.queueCommand urgent command).2.events = c.events ∧
      (c.queueCommand urgent command).2.state = c.state := by
  rcases performs_queueCommand urgent command c with
    ⟨e, h⟩ | ⟨e, d, hd, h⟩ | ⟨handle, d, hd, h⟩
  · rw [h]
    exact ⟨rfl, rfl⟩
  · rw [h]
    cases hd with
    | refuse _ => exact ⟨rfl, rfl⟩
  · rw [h]
    cases hd with
    | accept _ _ => exact ⟨pump_events _, pump_state _⟩

theorem reports_writePass (T : Transport τ) (c : Connection τ) :
    Reports c (c.writePass T).2 := by
  refine writePass_induct (fun d link h => h.trans (reports_link link d)) (fun d count h => ?_)
    (fun d reason h => h.trans (reports_finishClose reason d)) T (.refl c)
  exact h.trans (.of_state rfl rfl rfl (List.prefix_refl _))

theorem reports_pollConnect (answer : ConnectAnswer τ) (now : Instant) (c : Connection τ) :
    Reports c (c.pollConnect answer now).2 := by
  unfold pollConnect
  split
  · next stream _ =>
    have hup : Reports c
        { c with link := .stream stream, state := .established, lastActivity := now } :=
      ⟨rfl, rfl, List.prefix_refl _, fun _ h => by cases h⟩
    exact (hup.trans (reports_emit _ _)).trans (proceeds_pump _).reports
  · exact reports_finishClose _ c
  · exact .refl c

theorem reports_errorPass (T : Transport τ) (c : Connection τ) :
    Reports c (c.errorPass T).2 := by
  unfold errorPass
  split
  · exact .refl c
  · exact .of_state rfl rfl rfl (List.prefix_refl _)

/-- The timers of a connection whose child, if there is one, is in time. -/
theorem proceeds_idleEstablished (now : Instant) (c : Connection τ) :
    Proceeds c (c.idleEstablished now) := by
  unfold idleEstablished
  split
  · next hup =>
    have hopen : c.pump.isClosed = false := by
      simp only [isEstablished, beq_iff_eq] at hup
      simp [isClosed, pump_state, hup]
    dsimp only
    split
    · exact proceeds_pump c
    · next timeout _ =>
      rcases watchSilence_cases now timeout c.pump with h | h
      · exact (proceeds_pump c).trans h.serves.proceeds
      · rw [h]
        exact (proceeds_pump c).trans ((Does.close hopen _).proceeds rfl)
  · exact .refl c

/-- The end of a child is noted, and reported unless it was reported before. -/
def endChild (exit : ChildExit) (h : Helper τ) (c : Connection τ) : Connection τ :=
  { c with
    helper := some (h.finish c.id exit).2
    events := c.events ++ if h.ended then [] else [.childEnded c.id h.pid exit] }

theorem reports_endChild (exit : ChildExit) (h : Helper τ) (c : Connection τ) :
    Reports c (c.endChild exit h) :=
  .of_state rfl rfl rfl (List.prefix_append _ _)

theorem endChild_eq (exit : ChildExit) (h : Helper τ) (c : Connection τ) :
    (if (h.finish c.id exit).1 then
      emit (.childEnded c.id (h.finish c.id exit).2.pid exit)
        { c with helper := some (h.finish c.id exit).2 }
      else { c with helper := some (h.finish c.id exit).2 }) = c.endChild exit h := by
  unfold endChild Helper.finish emit
  by_cases hended : h.ended = true
  · simp [hended]
  · simp [hended]

theorem killOverdue_eq (h : Helper τ) (c : Connection τ) :
    c.killOverdue h = (c.endChild .timedOut (h.signal true .kill)).finishClose .timeout :=
  congrArg (finishClose .timeout) (endChild_eq .timedOut (h.signal true .kill) c)

theorem childReturned_eq {c : Connection τ} {h : Helper τ} (hchild : c.helper = some h)
    (exit : ChildExit) : c.childReturned exit =
      if c.readClosed || c.link.isDetached then
        (c.endChild exit { h with reaped := true }).finishClose .childEnded
      else c.endChild exit { h with reaped := true } := by
  unfold childReturned
  rw [hchild]
  simp only [endChild_eq]
  rfl

theorem reports_killOverdue (h : Helper τ) (c : Connection τ) : Reports c (c.killOverdue h) := by
  rw [killOverdue_eq]
  exact (reports_endChild _ _ c).trans (reports_finishClose _ _)

theorem reports_idle (now : Instant) (c : Connection τ) : Reports c (c.idle now) := by
  unfold idle
  split
  · split
    · exact reports_killOverdue _ c
    · exact (proceeds_idleEstablished now c).reports
  · exact (proceeds_idleEstablished now c).reports

theorem reports_childReturned (exit : ChildExit) (c : Connection τ) :
    Reports c (c.childReturned exit) := by
  cases hchild : c.helper with
  | none =>
    unfold childReturned
    rw [hchild]
    exact .refl c
  | some h =>
    rw [childReturned_eq hchild]
    split
    · exact (reports_endChild _ _ c).trans (reports_finishClose _ _)
    · exact reports_endChild _ _ c

theorem reports_sendValues (values : List Value) (c : Connection τ) :
    Reports c (values.foldl (fun c v => c.sendValue v) c) :=
  (serves_sendValues values c).proceeds.reports

end Observatory.Connection
