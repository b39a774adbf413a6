import Observatory.Proofs.Session.Books
/-!
# Requests and replies of a session

Whatever the owners of two connections do and however their bytes arrive, a side that is not
closed has at most one copy of a command, or one reply to it, on its way, and no reply ever comes
unasked.

* `Session.Step.kept` — one thing that happens keeps the books of both sides.
* `session_safe` — every reachable state.
-/

namespace Observatory

open Framing (stream Awaits)

variable {τ σ : Type}

/-! ## The books of the other side -/

namespace Books

variable {c : Connection τ} {out inn : List Parcel}

/-- Lines that are no replies may come in any number. -/
theorem of_operate (h : Books c out inn) {parcels : List Parcel}
    (hparcels : parcels.countP Parcel.isReply = 0) : Books c out (inn ++ parcels) where
  linked := h.linked
  helper := h.helper
  numbered := h.numbered
  distinct := h.distinct
  opcodes := h.opcodes
  expected := h.expected
  sound := h.sound
  plain := h.plain
  copies := h.copies
  count := fun hopen => by
    rw [List.countP_append, hparcels, Nat.add_zero]
    exact h.count hopen

/-- A line that is processed may be answered once if it was a copy of a command, and not at all
otherwise. -/
theorem of_frame {p : Parcel} (h : Books c (p :: out) inn) {parcels : List Parcel}
    (hparcels : parcels.countP Parcel.isReply ≤ if p.asks then 1 else 0) :
    Books c out (inn ++ parcels) where
  linked := h.linked
  helper := h.helper
  numbered := h.numbered
  distinct := h.distinct
  opcodes := h.opcodes
  expected := h.expected
  sound := fun p hp => h.sound p (List.mem_cons_of_mem _ hp)
  plain := fun hopen p hp => h.plain hopen p (List.mem_cons_of_mem _ hp)
  copies := fun hopen p hp => h.copies hopen p (List.mem_cons_of_mem _ hp)
  count := fun hopen => by
    have hcount := h.count hopen
    rw [List.countP_cons] at hcount
    rw [List.countP_append]
    cases hrequest : p.request with
    | none =>
      rw [h.plain hopen p List.mem_cons_self hrequest, if_neg Bool.false_ne_true] at hparcels
      omega
    | some handle =>
      simp only [hrequest, Option.isSome_some, if_true] at hcount
      have hone : (if p.asks = true then 1 else 0) ≤ 1 := by
        split <;> omega
      omega

end Books

/-! ## Several lines -/

/-- A side with the given books took lines: it processed some of them and wrote others, and the
other side keeps its books too. -/
structure Takes (c c' d : Connection τ) (lines : List Bytes) (count : Nat) (parcels : List Parcel)
    (out inn : List Parcel) : Prop where
  books : Books d (out ++ parcels) (inn.drop count)
  other : Books c' (inn.drop count) (out ++ parcels)
  output : d.output = c.output ++ stream (parcels.map Parcel.line)
  input : d.input = c.input
  /-- All of the lines are processed, unless the side is closed before that. -/
  all : d.isClosed = false → count = lines.length
  closed : c.isClosed = true → d.isClosed = true

namespace Connection

theorem foldl_processFrame_of_closed (dev : Device σ) (frames : List Framing.Frame)
    {t : Turn τ σ} (hclosed : t.conn.isClosed = true) :
    frames.foldl (processFrame dev) t = t := by
  induction frames with
  | nil => rfl
  | cons frame frames ih =>
    have hsame : processFrame dev t frame = t := by
      unfold processFrame
      rw [if_pos hclosed]
    rw [List.foldl_cons, hsame, ih]

/-- **The lines of a chunk**, one after the other. -/
theorem takes_frames (dev : Device σ) {c' : Connection τ} {limit : Nat}
    {frames : List Framing.Frame} {lines : List Bytes}
    (hframes : List.Forall₂ (Framing.IsFrameOf limit) frames lines) {t : Turn τ σ}
    {out inn : List Parcel} {left : List Bytes} (hlines : inn.map Parcel.line = lines ++ left)
    (h : Books t.conn out inn) (h' : Books c' inn out) :
    Takes t.conn c' (frames.foldl (processFrame dev) t).conn lines (follow dev t frames).1
      (follow dev t frames).2 out inn := by
  induction hframes generalizing t out inn with
  | nil =>
    refine ⟨?_, ?_, ?_, rfl, fun _ => rfl, fun hclosed => hclosed⟩ <;>
      simp only [follow, List.drop_zero, List.append_nil, List.foldl_nil, List.map_nil,
        Framing.stream_nil]
    · exact h
    · exact h'
  | @cons frame line frames lines hframe _ ih =>
    cases hopen : t.conn.isClosed with
    | true =>
      rw [foldl_processFrame_of_closed dev _ hopen]
      simp only [follow, hopen, if_true]
      refine ⟨?_, ?_, ?_, rfl, fun hopen' => ?_, fun hclosed => hclosed⟩
      · rw [List.append_nil]
        exact h
      · rw [List.append_nil]
        exact h'
      · simp
      · rw [hopen] at hopen'
        cases hopen'
    | false =>
      cases inn with
      | nil => simp at hlines
      | cons p inn =>
        simp only [List.map_cons, List.cons_append, List.cons.injEq] at hlines
        obtain ⟨rfl, hleft⟩ := hlines
        obtain ⟨n, hn, hkeeps⟩ := h.frame dev hopen (h'.sound p List.mem_cons_self) hframe
        have hother := h'.of_frame (show (written t.conn (processFrame dev t frame).conn).countP
          Parcel.isReply ≤ _ by rw [hkeeps.replies]; exact hn)
        have hrest := ih hleft hkeeps.books hother
        simp only [follow, hopen, Bool.false_eq_true, if_false, List.foldl_cons]
        refine ⟨?_, ?_, ?_, hrest.input.trans hkeeps.input, fun hopen' => ?_, fun hclosed => ?_⟩
        · rw [← List.append_assoc]
          exact hrest.books
        · rw [← List.append_assoc]
          exact hrest.other
        · rw [hrest.output, hkeeps.output, List.map_append, Framing.stream_append,
            List.append_assoc]
        · rw [hrest.all hopen', List.length_cons]
        · rw [hopen] at hclosed
          cases hclosed

end Connection

/-! ## Sessions -/

namespace Session

/-- The books of both sides are kept, and they are about the bytes on their way. -/
structure Kept (s : Session τ) : Prop where
  books : ∀ x, Books (s.conn x) (s.unread x) (s.unread x.other)
  lines : ∀ x, (s.conn x.other).isClosed = false →
    Awaits (s.conn x.other).input (s.channel x ++ (s.conn x).output)
      ((s.unread x).map Parcel.line)

theorem kept_of_isStart {s : Session τ} (h : IsStart s) : Kept s where
  books := fun x => by
    have hnew := h.conn x
    rw [h.unread, h.unread]
    refine ⟨hnew.linked, hnew.helper, ?_, ?_, ?_, ?_, ?_, ?_, ?_, ?_⟩ <;>
      simp [hnew.queue, hnew.events, CommandQueue.pending]
  lines := fun x _ => by
    rw [h.unread, h.channel, (h.conn x).output]
    exact Framing.awaits_fresh (h.conn x.other).held (h.conn x.other).discarding []

/-- **An owner** does something. -/
theorem Kept.operate {s : Session τ} (h : Kept s) (x : Side) {op : Operation τ}
    (hop : op.Allowed) : Kept (s.operate x op) := by
  have hkeeps := (h.books x).operate hop
  have hconn : (s.operate x op).conn x = op.apply (s.conn x) := Function.update_self _ _ _
  have hconn' : (s.operate x op).conn x.other = s.conn x.other :=
    Function.update_of_ne (by simp) _ _
  have hunread : (s.operate x op).unread x =
      s.unread x ++ Connection.written (s.conn x) (op.apply (s.conn x)) :=
    Function.update_self _ _ _
  have hunread' : (s.operate x op).unread x.other = s.unread x.other :=
    Function.update_of_ne (by simp) _ _
  have hchannel : (s.operate x op).channel = s.channel := rfl
  refine ⟨fun y => ?_, fun y hopen => ?_⟩
  · rcases x.eq_or_eq_other y with rfl | rfl
    · rw [hconn, hunread, hunread']
      exact hkeeps.books
    · rw [Side.other_other, hconn', hunread, hunread']
      have hbooks := h.books x.other
      rw [Side.other_other] at hbooks
      exact hbooks.of_operate hkeeps.replies
  · rcases x.eq_or_eq_other y with rfl | rfl
    · rw [hconn'] at hopen ⊢
      rw [hconn, hunread, hchannel, hkeeps.output, ← List.append_assoc, List.map_append]
      exact (h.lines y hopen).append _
    · rw [Side.other_other, hconn] at hopen
      rw [Side.other_other, hconn, hconn', hunread', hchannel, hkeeps.input]
      have hlines := h.lines x.other
      rw [Side.other_other] at hlines
      refine hlines ?_
      rw [← Bool.not_eq_true]
      intro hclosed
      rw [hkeeps.closed hclosed] at hopen
      cases hopen

/-- **Bytes leave** an output. -/
theorem Kept.carry {s : Session τ} (h : Kept s) (x : Side) (count : Nat) :
    Kept (s.carry x count) := by
  have hconn : (s.carry x count).conn x =
      { s.conn x with output := (s.conn x).output.drop count } := Function.update_self _ _ _
  have hconn' : (s.carry x count).conn x.other = s.conn x.other :=
    Function.update_of_ne (by simp) _ _
  have hchannel : (s.carry x count).channel x =
      s.channel x ++ (s.conn x).output.take count := Function.update_self _ _ _
  have hchannel' : (s.carry x count).channel x.other = s.channel x.other :=
    Function.update_of_ne (by simp) _ _
  have hunread : (s.carry x count).unread = s.unread := rfl
  refine ⟨fun y => ?_, fun y hopen => ?_⟩
  · rcases x.eq_or_eq_other y with rfl | rfl
    · rw [hconn, hunread]
      have hflush := Connection.Does.flush (c := s.conn y) count
      have hbooks := h.books y
      exact hbooks.of_alike (hflush.linked hbooks.linked) (hflush.helper hbooks.helper) rfl
        (fun hopen => hopen) hbooks.expected
    · rw [hconn', hunread]
      exact h.books x.other
  · rcases x.eq_or_eq_other y with rfl | rfl
    · rw [hconn'] at hopen ⊢
      rw [hconn, hchannel, hunread, List.append_assoc, List.take_append_drop]
      exact h.lines y hopen
    · rw [Side.other_other, hconn] at hopen
      rw [Side.other_other, hconn, hconn', hchannel', hunread]
      have hlines := h.lines x.other
      rw [Side.other_other] at hlines
      exact hlines hopen

theorem lineFeed_not_mem_lines {parcels : List Parcel} (h : ∀ p ∈ parcels, p.Sound) :
    ∀ l ∈ parcels.map Parcel.line, lineFeed ∉ l := by
  intro l hl
  obtain ⟨p, hp, rfl⟩ := List.mem_map.1 hl
  exact (h p hp).lineFeed_not_mem

/-- What a chunk leads to, and which lines are awaited behind it. -/
theorem Kept.takes {s : Session τ} (h : Kept s) (x : Side) (dev : Device σ) (own : Local σ)
    (now : Instant) (size : Nat) :
    let chunk := (s.channel x.other).take size
    let taken := Connection.taken dev now chunk ⟨s.conn x, own⟩
    ∃ c done left, c.output = (s.conn x).output ∧ c.isClosed = (s.conn x).isClosed ∧
      Takes c (s.conn x.other) (Connection.receive dev now chunk ⟨s.conn x, own⟩).conn done
        taken.1 taken.2 (s.unread x) (s.unread x.other) ∧
      (c.isClosed = false → (s.unread x.other).map Parcel.line = done ++ left ∧
        Awaits c.input ((s.channel x.other).drop size ++ (s.conn x.other).output) left) := by
  intro chunk taken
  let c : Connection τ :=
    { s.conn x with
      lastActivity := now, lastKeepalive := none, input := ((s.conn x).input.push chunk).2 }
  have harrive := Connection.Does.arrive (c := s.conn x) now ((s.conn x).input.push chunk).2
  have hbooks := (h.books x).of_alike (harrive.linked (h.books x).linked)
    (harrive.helper (h.books x).helper) rfl (fun hopen => hopen) (h.books x).expected
  have hother := h.books x.other
  rw [Side.other_other] at hother
  cases hopen : (s.conn x).isClosed with
  | true =>
    -- a closed connection processes nothing
    have htaken : taken = (0, []) := by
      show Connection.follow dev _ ((s.conn x).input.push chunk).1 = _
      cases ((s.conn x).input.push chunk).1 with
      | nil => rfl
      | cons frame frames => exact if_pos hopen
    have hclosed : c.isClosed = true := hopen
    refine ⟨c, [], [], rfl, hopen, ?_, fun h => by rw [hclosed] at h; cases h⟩
    show Takes c _ (List.foldl (Connection.processFrame dev) ⟨c, own⟩
      ((s.conn x).input.push chunk).1).conn _ _ _ _ _
    rw [Connection.foldl_processFrame_of_closed dev _ hopen, htaken]
    refine ⟨?_, ?_, ?_, rfl, fun _ => rfl, fun h => h⟩
    · rw [List.append_nil]
      exact hbooks
    · rw [List.append_nil]
      exact hother
    · simp
  | false =>
    have hlines := h.lines x.other
    rw [Side.other_other] at hlines
    have hawaits := hlines hopen
    rw [← List.take_append_drop size (s.channel x.other), List.append_assoc] at hawaits
    obtain ⟨done, left, hdone, hframes, hleft⟩ :=
      Framing.push_awaits (lineFeed_not_mem_lines hother.sound) hawaits
    exact ⟨c, done, left, rfl, hopen,
      Connection.takes_frames dev (t := ⟨c, own⟩) hframes hdone hbooks hother,
      fun _ => ⟨hdone, hleft⟩⟩

/-- **A chunk arrives.** -/
theorem Kept.receive {s : Session τ} (h : Kept s) (x : Side) (dev : Device σ) (own : Local σ)
    (now : Instant) (size : Nat) : Kept (s.receive x dev own now size) := by
  obtain ⟨c, done, left, houtput, hclosed, htakes, hlines⟩ := h.takes x dev own now size
  have hconn : (s.receive x dev own now size).conn x = (Connection.receive dev now
      ((s.channel x.other).take size) ⟨s.conn x, own⟩).conn := Function.update_self _ _ _
  have hconn' : (s.receive x dev own now size).conn x.other = s.conn x.other :=
    Function.update_of_ne (by simp) _ _
  have hchannel : (s.receive x dev own now size).channel x = s.channel x :=
    Function.update_of_ne (by simp) _ _
  have hchannel' : (s.receive x dev own now size).channel x.other =
      (s.channel x.other).drop size := Function.update_self _ _ _
  have hunread : (s.receive x dev own now size).unread x = s.unread x ++
      (Connection.taken dev now ((s.channel x.other).take size) ⟨s.conn x, own⟩).2 :=
    (Function.update_of_ne (by simp) _ _).trans (Function.update_self _ _ _)
  have hunread' : (s.receive x dev own now size).unread x.other = (s.unread x.other).drop
      (Connection.taken dev now ((s.channel x.other).take size) ⟨s.conn x, own⟩).1 :=
    Function.update_self _ _ _
  refine ⟨fun y => ?_, fun y hopen => ?_⟩
  · rcases x.eq_or_eq_other y with rfl | rfl
    · rw [hconn, hunread, hunread']
      exact htakes.books
    · rw [Side.other_other, hconn', hunread, hunread']
      exact htakes.other
  · rcases x.eq_or_eq_other y with rfl | rfl
    · rw [hconn'] at hopen ⊢
      rw [hconn, hchannel, hunread, List.map_append, htakes.output, houtput, ← List.append_assoc]
      exact (h.lines y hopen).append _
    · rw [Side.other_other, hconn] at hopen
      rw [Side.other_other, hconn, hconn', hchannel', hunread']
      have hopen' : c.isClosed = false := by
        rw [← Bool.not_eq_true]
        intro hc
        rw [htakes.closed hc] at hopen
        cases hopen
      obtain ⟨hdone, hleft⟩ := hlines hopen'
      rw [List.map_drop, hdone, htakes.all hopen, List.drop_left, htakes.input]
      exact hleft

/-- **One step** keeps the books. -/
theorem Step.kept {s s' : Session τ} (hstep : Step s s') (h : Kept s) : Kept s' := by
  cases hstep with
  | operate x hop => exact h.operate x hop
  | carry x count => exact h.carry x count
  | receive x dev own now size => exact h.receive x dev own now size

theorem kept_of_run {s₀ s : Session τ} (hstart : IsStart s₀)
    (hrun : Relation.ReflTransGen Step s₀ s) : Kept s := by
  induction hrun with
  | refl => exact kept_of_isStart hstart
  | tail _ hstep ih => exact hstep.kept ih

theorem Kept.safe {s : Session τ} (h : Kept s) : Safe s where
  lines := h.lines
  expected := fun x => (h.books x).expected
  asked := fun x hopen p hp hasks => by
    cases hrequest : p.request with
    | some handle => rfl
    | none =>
      rw [(h.books x).plain hopen p hp hrequest] at hasks
      cases hasks
  inFlight := fun x q hopen hq => by
    have hcount := (h.books x).count hopen
    rw [hq] at hcount
    refine ⟨hcount, fun p hp hrequest => ?_⟩
    obtain ⟨handle, hhandle⟩ := Option.isSome_iff_exists.1 hrequest
    obtain ⟨q', hq', rfl, hline⟩ := (h.books x).copies hopen p hp handle hhandle
    rw [hq] at hq'
    cases hq'
    exact ⟨hhandle, hline⟩
  idle := fun x hopen hnone => by
    have hcount := (h.books x).count hopen
    rw [hnone] at hcount
    exact Nat.add_eq_zero_iff.1 (Nat.le_zero.1 hcount)

end Session

/-- **Requests and replies are safe** in every reachable state of a session. -/
theorem session_safe {s₀ s : Session τ} (hstart : s₀.IsStart)
    (hrun : Relation.ReflTransGen Session.Step s₀ s) : s.Safe :=
  (Session.kept_of_run hstart hrun).safe

/-- A command that was carried over and answered: its reply is on its way. -/
theorem session_safe_of_info : ∃ s : Session Unit,
    Relation.ReflTransGen Session.Step
      { conn := fun _ => Connection.inMemory 1 .client "peer" 0 } s ∧
    s.replies .near = 1 ∧ s.Safe := by
  have hstart : Session.IsStart
      ({ conn := fun _ => Connection.inMemory 1 .client "peer" 0 } : Session Unit) :=
    ⟨fun _ => Connection.isNew_inMemory 1 .client "peer" 0, fun _ => rfl, fun _ => rfl⟩
  have hqueue : Session.Step
      ({ conn := fun _ => Connection.inMemory 1 .client "peer" 0 } : Session Unit) _ :=
    .operate .near (show Operation.Allowed (.queue false { opcode := "info" }) from
      (by decide : Record.IsOpcode "info"))
  have hrun := ((Relation.ReflTransGen.single hqueue).tail (.carry .near 5)).tail
    (.receive .far Device.passive ⟨{}, ()⟩ 0 5)
  exact ⟨_, hrun, by decide +kernel, session_safe hstart hrun⟩

end Observatory
