import Observatory.Proofs.Connection.Child
/-!
# What the observer of a child is told

Whoever watches a child is told of its end by a report of its own, which waits at the connection
until it is gathered. There is one such report for each child whose end was noted, and it waits no
longer than the events of the connection do. So where the events of a connection were delivered,
nothing is left to tell.

* `Connection.untold` — the reports of the end that wait.
* `Connection.Observed` — what holds of a connection between any two changes.
* `Connection.Tends` — a change, with the reports that it takes away and whether it collects the
  exit status.
* `tends_endChild`, `tends_childReturned`, `tends_idle`, `tends_errorPass` — what touches the child.
-/

namespace Observatory

/-- The end of the child behind a connection. -/
def HelperReport.isEndOf (id : ConnId) : HelperReport → Bool
  | childEnd conn _ => conn == id
  | errorLine _ _ => false

namespace Connection

variable {τ : Type} {b c d : Connection τ}

/-- What waits to be told to the observer of the child. -/
def tidings (c : Connection τ) : List HelperReport := (c.helper.map (·.reports)).getD []

/-- How often the end of the child waits to be told. -/
def untold (c : Connection τ) : Nat := c.tidings.countP (HelperReport.isEndOf c.id)

/-- The exit status of the child was collected. -/
def isReaped (c : Connection τ) : Bool := c.helper.any (·.reaped)

/-- What is known of a connection and the observer of its child at any time. -/
structure Observed (c : Connection τ) : Prop where
  own : ∀ r ∈ c.tidings, ∀ id, r.isEndOf id = true → id = c.id
  noted : c.untold ≠ 0 → c.events ≠ []
  ended : c.isReaped = true → c.childOver = true

/-- A change that takes away `gathered` reports of the end; `reaps` says whether it collects the
exit status. -/
structure Tends (reaps : Bool) (gathered : Nat) (c d : Connection τ) : Prop where
  id : d.id = c.id
  reaped : d.isReaped = (c.isReaped || reaps)
  told : d.untold + gathered + c.childOver.toNat = c.untold + d.childOver.toNat
  observed : c.Observed → d.Observed

theorem Tends.trans {reaps reaps' : Bool} {m n : Nat} (h : Tends reaps m b c)
    (h' : Tends reaps' n c d) : Tends (reaps || reaps') (m + n) b d where
  id := h'.id.trans h.id
  reaped := by rw [h'.reaped, h.reaped, Bool.or_assoc]
  told := by
    have htold := h.told
    have htold' := h'.told
    omega
  observed := fun hb => h'.observed (h.observed hb)

/-- The child is left alone. -/
theorem Tends.of_helper (hid : d.id = c.id) (hhelper : d.helper = c.helper)
    (hgrows : c.events <+: d.events) : Tends false 0 c d := by
  have htidings : d.tidings = c.tidings := congrArg (fun h => (h.map (·.reports)).getD []) hhelper
  have huntold : d.untold = c.untold := by unfold untold; rw [htidings, hid]
  have hreaped : d.isReaped = c.isReaped := congrArg (·.any (·.reaped)) hhelper
  have hover : d.childOver = c.childOver := congrArg (·.any (·.ended)) hhelper
  refine ⟨hid, by rw [hreaped, Bool.or_false], by rw [huntold, hover, Nat.add_zero], fun hc => ?_⟩
  refine ⟨by rw [htidings, hid]; exact hc.own, fun huntold' hnone => ?_, ?_⟩
  · rw [hnone, List.prefix_nil] at hgrows
    exact hc.noted (huntold ▸ huntold') hgrows
  · rw [hreaped, hover]
    exact hc.ended

theorem Tends.refl (c : Connection τ) : Tends false 0 c c :=
  .of_helper rfl rfl (List.prefix_refl _)

/-! ## What leaves the child alone -/

theorem tends_finishClose (reason : CloseReason) (c : Connection τ) :
    Tends false 0 c (c.finishClose reason) :=
  .of_helper rfl rfl (reports_finishClose reason c).grows

theorem helper_pollConnect (answer : ConnectAnswer τ) (now : Instant) (c : Connection τ) :
    (c.pollConnect answer now).2.helper = c.helper := by
  unfold pollConnect
  split
  · exact (converses_pump (Q := fun _ => True) _).helper
  · rfl
  · rfl

theorem helper_writePass (T : Transport τ) (c : Connection τ) :
    (c.writePass T).2.helper = c.helper :=
  writePass_induct (P := fun d => d.helper = c.helper) (fun _ _ h => h) (fun _ _ h => h)
    (fun _ _ h => h) T rfl

/-! ## What touches it -/

/-- Reports are added behind those that wait. -/
theorem Tends.of_reports {h k : Helper τ} {more : List HelperReport} {reaps : Bool}
    (hid : d.id = c.id) (hc : c.helper = some h) (hd : d.helper = some k)
    (hreports : k.reports = h.reports ++ more)
    (hown : ∀ r ∈ more, ∀ id, r.isEndOf id = true → id = c.id)
    (hcount : more.countP (HelperReport.isEndOf c.id) + h.ended.toNat = k.ended.toNat)
    (hreaped : k.reaped = (h.reaped || reaps)) (hended : reaps = true → k.ended = true)
    (hgrows : c.events <+: d.events)
    (hnoted : more.countP (HelperReport.isEndOf c.id) ≠ 0 → d.events ≠ []) :
    Tends reaps 0 c d := by
  have hbefore : c.tidings = h.reports := by unfold tidings; rw [hc]; rfl
  have hafter : d.tidings = h.reports ++ more := by unfold tidings; rw [hd]; exact hreports
  have huntold : d.untold = c.untold + more.countP (HelperReport.isEndOf c.id) := by
    unfold untold
    rw [hafter, hbefore, hid, List.countP_append]
  have hover : c.childOver = h.ended := by unfold childOver; rw [hc]; rfl
  have hover' : d.childOver = k.ended := by unfold childOver; rw [hd]; rfl
  have hwas : c.isReaped = h.reaped := by unfold isReaped; rw [hc]; rfl
  have hwas' : d.isReaped = k.reaped := by unfold isReaped; rw [hd]; rfl
  refine ⟨hid, by rw [hwas', hwas, hreaped], by rw [huntold, hover, hover']; omega,
    fun hobserved => ⟨fun r hr id hend => ?_, fun hwaits => ?_, fun hcollected => ?_⟩⟩
  · rw [hafter] at hr
    rw [hid]
    rcases List.mem_append.1 hr with hr | hr
    · exact hobserved.own r (hbefore ▸ hr) id hend
    · exact hown r hr id hend
  · by_cases hmore : more.countP (HelperReport.isEndOf c.id) = 0
    · rw [huntold, hmore, Nat.add_zero] at hwaits
      intro hnone
      rw [hnone, List.prefix_nil] at hgrows
      exact hobserved.noted hwaits hgrows
    · exact hnoted hmore
  · rw [hwas', hreaped, Bool.or_eq_true] at hcollected
    rw [hover']
    rcases hcollected with hcollected | hcollected
    · have hearlier : h.ended = true := hover ▸ hobserved.ended (hwas.trans hcollected)
      rw [hearlier, Bool.toNat_true] at hcount
      cases hk : k.ended with
      | true => rfl
      | false =>
        rw [hk, Bool.toNat_false] at hcount
        omega
    · exact hended hcollected

/-- What is written to the error stream tells nothing of the end. -/
theorem reportErrors_eq (conn : ConnId) (bytes : Bytes) (h : Helper τ) :
    ∃ errorLines lines, reportErrors conn bytes h =
        { h with errorLines, reports := h.reports ++ lines } ∧
      ∀ r ∈ lines, ∀ id, r.isEndOf id = false := by
  refine ⟨_, _, rfl, fun r hr id => ?_⟩
  obtain ⟨frame, -, hframe⟩ := List.mem_filterMap.1 hr
  split at hframe
  · cases hframe
    rfl
  · cases hframe

theorem tends_errorPass (T : Transport τ) (c : Connection τ) :
    Tends false 0 c (c.errorPass T).2 := by
  cases hchild : c.helper with
  | none =>
    unfold errorPass
    rw [hchild]
    exact .refl c
  | some h =>
    obtain ⟨errors, read, hpass⟩ := errorPass_eq T hchild
    obtain ⟨errorLines, lines, hlines, hother⟩ := reportErrors_eq c.id read { h with errors }
    have hnone : lines.countP (HelperReport.isEndOf c.id) = 0 :=
      List.countP_eq_zero.2 fun r hr => Bool.eq_false_iff.1 (hother r hr c.id)
    rw [hpass, hlines]
    refine .of_reports rfl hchild rfl rfl (fun r hr id hend => ?_) ?_ (Bool.or_false _).symm nofun
      (List.prefix_refl _) fun hsome => (hsome hnone).elim
    · rw [hother r hr id] at hend
      cases hend
    · rw [hnone, Nat.zero_add]

/-- **The end of a child is noted.** It waits to be told, unless it was noted before. -/
theorem tends_endChild {h k : Helper τ} (hchild : c.helper = some h) (hended : k.ended = h.ended)
    (hreports : k.reports = h.reports) {reaps : Bool} (hreaped : k.reaped = (h.reaped || reaps))
    (exit : ChildExit) : Tends reaps 0 c (c.endChild exit k) := by
  cases hwas : k.ended with
  | true =>
    have hfinish : (k.finish c.id exit).2 = k := by unfold Helper.finish; rw [if_pos hwas]
    have hnone : k.reports = h.reports ++ [] := hreports.trans (List.append_nil _).symm
    refine .of_reports rfl hchild (congrArg some hfinish) hnone (fun r hr => by cases hr) ?_ hreaped
      (fun _ => hwas) (reports_endChild exit k c).grows fun hsome => (hsome rfl).elim
    rw [hended]
    exact Nat.zero_add _
  | false =>
    have hfinish : (k.finish c.id exit).2 =
        { k with ended := true, reports := k.reports ++ [.childEnd c.id exit] } := by
      unfold Helper.finish
      rw [if_neg (by simp [hwas])]
    refine .of_reports rfl hchild (congrArg some hfinish) (congrArg (· ++ _) hreports)
      (fun r hr id hend => ?_) ?_ hreaped (fun _ => rfl) (reports_endChild exit k c).grows
      fun _ => ?_
    · rw [List.mem_singleton.1 hr] at hend
      exact (beq_iff_eq.1 hend).symm
    · simp [HelperReport.isEndOf, ← hended, hwas]
    · simp [endChild, hwas]

/-- **The exit status is collected.** -/
theorem tends_childReturned {h : Helper τ} (hchild : c.helper = some h) (exit : ChildExit) :
    Tends true 0 c (c.childReturned exit) := by
  have hend : Tends true 0 c (c.endChild exit { h with reaped := true }) :=
    tends_endChild (k := { h with reaped := true }) hchild rfl rfl (by rw [Bool.or_true]) exit
  rw [childReturned_eq hchild]
  split
  · exact hend.trans (tends_finishClose _ _)
  · exact hend

/-- **The timers.** -/
theorem tends_idle (now : Instant) (c : Connection τ) : Tends false 0 c (c.idle now) := by
  have hdealt : Tends false 0 c (c.idleEstablished now) :=
    .of_helper (converses_idleEstablished (Q := fun _ => True) now c).id
      (converses_idleEstablished (Q := fun _ => True) now c).helper
      (proceeds_idleEstablished now c).reports.grows
  unfold idle
  split
  · next h hchild =>
    split
    · have hend : Tends false 0 c (c.endChild .timedOut (h.signal true .kill)) :=
        tends_endChild (k := h.signal true .kill) hchild rfl rfl (Bool.or_false _).symm .timedOut
      rw [killOverdue_eq]
      exact hend.trans (tends_finishClose _ _)
    · exact hdealt
  · exact hdealt

end Connection

end Observatory
