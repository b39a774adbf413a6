import Mathlib.Algebra.Ring.Int.Defs
import Observatory.Proofs.Connection.Answers
import Observatory.Proofs.Connection.Reports
import Observatory.Proofs.Endpoint.Protection
import Observatory.Proofs.Value.Shifts
/-!
# A ledger of shifts

A peer asks to add to a whole number, or to take away from it, and gets an answer. As long as nobody
assigns to the value, the number that is held is kept by a ledger: each request that was answered
with the code zero moved it by the exact operand and was reported once, and every other one got a
negative code and left it alone.

* `Shift` — one request, with what was held before it and what it was answered.
* `Connection.shiftsOf`, `Connection.shiftsFor` — the requests among frames, and among what is read
  from a stream.
* `Connection.Booked` — the ledger is right; `booked_processFrame` for one frame, and
  `booked_receive`, `booked_readFor` for all.
-/

namespace Observatory

open Framing (Frame)

/-! ## Answers -/

/-- The code of a reply. -/
def Record.code? : Record → Option Int32
  | reply code _ => some code
  | _ => none

/-- The code of the reply that whole lines end with. -/
def replyIn? (bytes : Bytes) : Option Int32 :=
  (Framing.cut bytes).1.getLast?.bind fun line => (readLine line).bind Record.code?

theorem replyIn?_reply (code : Int32) (reason : String) :
    replyIn? (recordBytes [.reply code reason]) = some code := by
  have hline := Record.oneLine_reply code reason
  unfold replyIn?
  rw [recordBytes_singleton,
    Framing.cut_line_append (l := lineBytes _) hline.lineFeed_not_mem_encode, Framing.cut_nil,
    List.getLast?_singleton, Option.bind_some, readLine_lineBytes hline, Record.parseChars_reply]
  rfl

/-! ## Changes of a number -/

/-- A back end that does not change the number of a name by itself. -/
structure Device.LeavesAlone {σ : Type} (name : String) (dev : Device σ) : Prop where
  info : ∀ values s, (dev.info values s).2.1.tally? name = values.tally? name
  command : ∀ opcode params values s,
    (dev.command opcode params values s).2.1.tally? name = values.tally? name
  idle : ∀ values s, (dev.idle values s).1.tally? name = values.tally? name

theorem Device.leavesAlone_passive (name : String) : Device.passive.LeavesAlone name :=
  ⟨fun _ _ => rfl, fun _ _ _ _ => rfl, fun _ _ => rfl⟩

/-- The event reports that a peer changed the value of a name. -/
def Event.isSetOf (name : String) : Event → Bool
  | valueSet _ n => n == name
  | _ => false

/-- The record assigns to the value of a name, in full or in short. -/
def Record.Overwrites (name : String) : Record → Prop
  | set n op _ => n = name ∧ op = .assign
  | command opcode _ => opcode = name ∧ opcode ≠ "info"
  | _ => False

instance (name : String) : DecidablePred (Record.Overwrites name)
  | .set _ _ _ => inferInstanceAs (Decidable (_ ∧ _))
  | .command _ _ => inferInstanceAs (Decidable (_ ∧ _))
  | .value _ _ => .isFalse id
  | .metaInfo _ _ _ => .isFalse id
  | .symbolInfo _ _ => .isFalse id
  | .status _ => .isFalse id
  | .blocking _ => .isFalse id
  | .message _ => .isFalse id
  | .technical _ => .isFalse id
  | .reply _ _ => .isFalse id

/-! ## Entries -/

/-- A request to add to a number or to take away from it, with what was held before it and the code
that it was answered with. -/
structure Shift where
  conn : ConnId
  op : Operator
  operand : String
  held : Option (Base × Int)
  answer : Option Int32
  deriving DecidableEq

namespace Shift

/-- Answered with the code that says it was done. -/
def taken (s : Shift) : Bool := s.answer == some 0

/-- The operand with its sign. -/
def amount (s : Shift) : Int :=
  Scalar.combineInt s.op 0 ((Number.ofText? s.operand.toList).getD 0)

/-- By how much the requests that were done moved the number. -/
def total (shifts : List Shift) : Int := ((shifts.filter taken).map amount).sum

@[simp] theorem total_nil : total [] = 0 := rfl

@[simp] theorem total_append (a b : List Shift) : total (a ++ b) = total a + total b := by
  simp [total]

/-- Either it was answered with zero, and then its operand is a number and the exact result fits, or
with a negative code. -/
def IsFair (b : Base) (s : Shift) : Prop :=
  ∃ n code, s.held = some (b, n) ∧ s.answer = some code ∧
    (code < 0 ∨ code = 0 ∧
      ∃ k, Number.ofText? s.operand.toList = some k ∧ b.Fits (Scalar.combineInt s.op n k))

end Shift

namespace Connection

variable {τ σ : Type} {dev : Device σ} {name : String}

/-! ## Reports of changes -/

/-- How often a connection has a change of the value to report. -/
def setsOf (name : String) (c : Connection τ) : Nat := c.events.countP (Event.isSetOf name)

theorem setsOf_emit {e : Event} (he : e.isSetOf name = false) (c : Connection τ) :
    (c.emit e).setsOf name = c.setsOf name := by
  unfold setsOf emit
  rw [List.countP_append, List.countP_singleton, he]
  rfl

theorem setsOf_valueSet (id : ConnId) (c : Connection τ) :
    (c.emit (.valueSet id name)).setsOf name = c.setsOf name + 1 := by
  unfold setsOf emit
  rw [List.countP_append, List.countP_singleton, Event.isSetOf, beq_self_eq_true]
  rfl

theorem setsOf_finishClose (reason : CloseReason) (c : Connection τ) :
    (c.finishClose reason).setsOf name = c.setsOf name := by
  have hlost (completions : List Completion) :
      (completions.map Event.commandFailed).countP (Event.isSetOf name) = 0 := by
    refine List.countP_eq_zero.2 fun e he => ?_
    obtain ⟨completion, -, rfl⟩ := List.mem_map.1 he
    exact Bool.false_ne_true
  unfold setsOf finishClose
  dsimp only
  rw [List.countP_append, List.countP_append, hlost]
  rfl

theorem setsOf_pump (c : Connection τ) : c.pump.setsOf name = c.setsOf name :=
  congrArg (List.countP _) (pump_events c)

theorem events_sendValues (values : List Value) (c : Connection τ) :
    (values.foldl (fun c v => c.sendValue v) c).events = c.events := by
  induction values generalizing c with
  | nil => rfl
  | cons v vs ih =>
    rw [List.foldl_cons, ih, sendValue_eq]

theorem setsOf_countParseError (c : Connection τ) :
    c.countParseError.setsOf name = c.setsOf name := by
  rcases countParseError_cases c with h | h
  · rw [h]
    rfl
  · rw [h]
    exact setsOf_finishClose _ _

theorem setsOf_receiveReply (code : Int32) (reason : String) (c : Connection τ) :
    (c.receiveReply code reason).setsOf name = c.setsOf name := by
  unfold receiveReply
  split
  · exact setsOf_finishClose _ c
  · split
    · rfl
    · split
      · rfl
      · dsimp only
        rw [setsOf_pump]
        split
        · next completion _ =>
          refine setsOf_emit ?_ _
          unfold Completion.event
          split <;> rfl
        · rfl

/-! ## Requests -/

/-- The number is as it was, and no change of it was reported. -/
structure Unmoved (name : String) (t t' : Turn τ σ) : Prop where
  tally : t'.own.values.tally? name = t.own.values.tally? name
  sets : t'.conn.setsOf name = t.conn.setsOf name

theorem Unmoved.trans {t t' t'' : Turn τ σ} (h : Unmoved name t t') (h' : Unmoved name t' t'') :
    Unmoved name t t'' :=
  ⟨h'.tally.trans h.tally, h'.sets.trans h.sets⟩

/-- A request that names another value. -/
theorem unmoved_receiveSet {n : String} (hn : n ≠ name) (op : Operator) (text : String)
    (t : Turn τ σ) : Unmoved name t (receiveSet dev n op text t).1 := by
  unfold receiveSet
  dsimp only
  split
  · exact ⟨rfl, rfl⟩
  · next current hcurrent =>
    split
    · exact ⟨rfl, rfl⟩
    · split
      · exact ⟨rfl, rfl⟩
      · exact ⟨rfl, rfl⟩
      · next updated happly =>
        split
        · exact ⟨rfl, rfl⟩
        · have hname : updated.name = n :=
            (Value.name_of_applyText happly).trans (Registry.mem_of_get? hcurrent).2
          refine ⟨Registry.tally?_put_of_ne hn (w := updated.markDirty) hname _, setsOf_emit ?_ _⟩
          simpa [Event.isSetOf] using hn

theorem unmoved_receiveCommand (hdev : dev.LeavesAlone name) {opcode params : String}
    (hother : ¬ (Record.command opcode params).Overwrites name) (t : Turn τ σ) :
    Unmoved name t (receiveCommand dev opcode params t).1 := by
  unfold receiveCommand
  split
  · unfold receiveInfo
    dsimp only
    split
    · exact ⟨hdev.info _ _, rfl⟩
    · exact ⟨hdev.info _ _, congrArg (List.countP _) (events_sendValues _ t.conn)⟩
  · next hinfo =>
    split
    · exact unmoved_receiveSet (fun hname => hother ⟨hname, hinfo⟩) _ _ t
    · dsimp only
      split <;> exact ⟨hdev.command _ _ _ _, rfl⟩

theorem setsOf_replicate (n text : String) (c : Connection τ) :
    (c.replicate n text).1.setsOf name = c.setsOf name := by
  unfold replicate
  split
  · rfl
  · split
    · exact setsOf_emit rfl _
    · rfl

theorem setsOf_announce (code : UInt32) (n description : String) (c : Connection τ) :
    (c.announce code n description).1.setsOf name = c.setsOf name := by
  unfold announce
  split <;> rfl

theorem setsOf_announceSymbol (n symbol : String) (c : Connection τ) :
    (c.announceSymbol n symbol).setsOf name = c.setsOf name := by
  unfold announceSymbol
  split <;> rfl

theorem setsOf_receiveStatus (bits : UInt32) (c : Connection τ) :
    (c.receiveStatus bits).setsOf name = c.setsOf name := by
  unfold receiveStatus
  dsimp only
  split
  · rfl
  · exact setsOf_emit rfl _

theorem setsOf_receiveTechnical (text : String) (c : Connection τ) :
    (c.receiveTechnical text).setsOf name = c.setsOf name := by
  unfold receiveTechnical
  split <;> rfl

/-- **A record of another sort**, or about another value, moves nothing. -/
theorem unmoved_dispatch (hdev : dev.LeavesAlone name) {r : Record}
    (hother : ¬ r.Overwrites name) (hset : ∀ op text, r ≠ .set name op text) (t : Turn τ σ) :
    Unmoved name t (dispatch dev r t).1 := by
  cases r with
  | set n op text =>
    have hn : n ≠ name := by
      rintro rfl
      exact hset op text rfl
    exact unmoved_receiveSet hn op text t
  | command opcode params => exact unmoved_receiveCommand hdev hother t
  | value n text => exact ⟨rfl, setsOf_replicate n text t.conn⟩
  | metaInfo code n description => exact ⟨rfl, setsOf_announce code n description t.conn⟩
  | symbolInfo n symbol => exact ⟨rfl, setsOf_announceSymbol n symbol t.conn⟩
  | status bits => exact ⟨rfl, setsOf_receiveStatus bits t.conn⟩
  | blocking bits => exact ⟨rfl, rfl⟩
  | message m => exact ⟨rfl, setsOf_emit rfl _⟩
  | technical text => exact ⟨rfl, setsOf_receiveTechnical text t.conn⟩
  | reply code reason => exact ⟨rfl, setsOf_receiveReply code reason t.conn⟩

/-- What becomes of the complaint about a record moves nothing. -/
theorem unmoved_processLine (name : String) (dev : Device σ) (t : Turn τ σ) {line : String}
    {r : Record} (hparse : Record.parse line = .ok r) :
    Unmoved name (dispatch dev r t).1 (processLine dev line t) ∧
      (processLine dev line t).conn.output = (dispatch dev r t).1.conn.output := by
  rw [processLine_ok dev t hparse]
  generalize dispatch dev r t = p
  obtain ⟨t', complaint⟩ := p
  cases complaint with
  | none => exact ⟨⟨rfl, rfl⟩, rfl⟩
  | some e => exact ⟨⟨rfl, setsOf_countParseError t'.conn⟩, output_countParseError t'.conn⟩

/-! ## Shifts -/

/-- What came of a request to add or to take away, by the code of the answer: nothing moved, or the
number moved by the exact operand, and that is reported. -/
inductive Settled (name : String) (b : Base) (n : Int) (op : Operator) (text : String)
    (t t' : Turn τ σ) : Int32 → Prop
  | refused {code : Int32} (hcode : code < 0) (h : Unmoved name t t') :
    Settled name b n op text t t' code
  | done {k : Int} (hk : Number.ofText? text.toList = some k)
    (hfits : b.Fits (Scalar.combineInt op n k))
    (htally : t'.own.values.tally? name = some (b, Scalar.combineInt op n k))
    (hsets : t'.conn.setsOf name = t.conn.setsOf name + 1) : Settled name b n op text t t' 0

theorem Settled.trans {b : Base} {n : Int} {op : Operator} {text : String} {t t' t'' : Turn τ σ}
    {code : Int32} (h : Settled name b n op text t t' code) (h' : Unmoved name t' t'') :
    Settled name b n op text t t'' code := by
  cases h with
  | refused hcode h => exact .refused hcode (h.trans h')
  | done hk hfits htally hsets =>
    exact .done hk hfits (h'.tally.trans htally) (h'.sets.trans hsets)

/-- **One request to add or to take away** is answered, and settled. -/
theorem settled_receiveSet (dev : Device σ) {op : Operator} (hop : op ≠ .assign) (text : String)
    {t : Turn τ σ} {b : Base} {n : Int} (hheld : t.own.values.tally? name = some (b, n)) :
    ∃ code reason,
      (receiveSet dev name op text t).1.conn.output = (t.conn.sendReply code reason).output ∧
      Settled name b n op text t (receiveSet dev name op text t).1 code := by
  obtain ⟨v, hv, hwritable, hwhole⟩ := Registry.get?_of_tally? hheld
  unfold receiveSet
  dsimp only
  rw [hv]
  dsimp only
  rw [hwritable, Bool.not_true, if_neg Bool.false_ne_true]
  split
  · exact ⟨-3, _, rfl, .refused (by decide) ⟨rfl, rfl⟩⟩
  · exact ⟨-3, _, rfl, .refused (by decide) ⟨rfl, rfl⟩⟩
  · next updated happly =>
    split
    · exact ⟨-1, _, rfl, .refused (by decide) ⟨rfl, rfl⟩⟩
    · obtain ⟨k, hk, hupdated⟩ := Value.whole?_of_applyText hop hwhole happly
      have hname : updated.name = name :=
        (Value.name_of_applyText happly).trans (Registry.mem_of_get? hv).2
      have hput : (t.own.values.put name updated.markDirty).tally? name =
          some (b, Scalar.combineInt op n k) := by
        rw [Registry.tally?_put hv (w := updated.markDirty) hname]
        show (if updated.flags.writable then updated.contents.whole? else none) = _
        rw [Value.flags_of_applyText happly, hwritable, if_pos rfl, hupdated]
      exact ⟨0, _, rfl, .done hk (Contents.fits_of_whole? hupdated) hput (setsOf_valueSet _ _)⟩

/-- The request that a frame is, if it asks to change the value of a name. -/
def shiftOf? (dev : Device σ) (name : String) (t : Turn τ σ) (frame : Frame) : Option Shift :=
  if t.conn.isClosed then none
  else match recordOf? frame with
    | some (.set n op operand) =>
      if n = name then some {
        conn := t.conn.id, op, operand
        held := t.own.values.tally? name
        answer := replyIn? ((processFrame dev t frame).conn.output.drop t.conn.output.length) }
      else none
    | _ => none

/-- The requests among frames, in their order. -/
def shiftsOf (dev : Device σ) (name : String) : List Frame → Turn τ σ → List Shift
  | [], _ => []
  | frame :: frames, t =>
    (shiftOf? dev name t frame).toList ++ shiftsOf dev name frames (processFrame dev t frame)

/-- The requests among the lines that bytes complete. -/
def shiftsIn (dev : Device σ) (name : String) (now : Instant) (bytes : Bytes) (t : Turn τ σ) :
    List Shift :=
  let (frames, input) := t.conn.input.push bytes
  shiftsOf dev name frames
    (t.onConn fun c => { c with lastActivity := now, lastKeepalive := none, input })

/-- **The ledger is right**: the number moved by what was taken, each change was reported once, and
every request got a fair answer. -/
structure Booked (name : String) (b : Base) (n : Int) (t : Turn τ σ) (shifts : List Shift)
    (t' : Turn τ σ) : Prop where
  tally : t'.own.values.tally? name = some (b, n + Shift.total shifts)
  sets : t'.conn.setsOf name = t.conn.setsOf name + shifts.countP Shift.taken
  fair : ∀ s ∈ shifts, s.conn = t.conn.id ∧ s.IsFair b

section

variable {b : Base} {n : Int} {t t' t'' : Turn τ σ}

theorem Unmoved.booked (h : Unmoved name t t') (hheld : t.own.values.tally? name = some (b, n)) :
    Booked name b n t [] t' where
  tally := by rw [h.tally, hheld, Shift.total_nil, Int.add_zero]
  sets := h.sets
  fair := fun _ hs => by cases hs

theorem Booked.append {as bs : List Shift} (h : Booked name b n t as t')
    (hid : t'.conn.id = t.conn.id) (h' : Booked name b (n + Shift.total as) t' bs t'') :
    Booked name b n t (as ++ bs) t'' where
  tally := by rw [h'.tally, Shift.total_append, Int.add_assoc]
  sets := by rw [h'.sets, h.sets, List.countP_append, Nat.add_assoc]
  fair := fun s hs => by
    rcases List.mem_append.1 hs with hs | hs
    · exact h.fair s hs
    · rw [← hid]
      exact h'.fair s hs

/-- One request makes one entry. -/
theorem Settled.booked {s : Shift} {code : Int32} (hop : s.op ≠ .assign)
    (hconn : s.conn = t.conn.id) (hheld : t.own.values.tally? name = some (b, n))
    (hsame : s.held = t.own.values.tally? name) (hanswer : s.answer = some code)
    (h : Settled name b n s.op s.operand t t' code) : Booked name b n t [s] t' := by
  rw [hheld] at hsame
  cases h with
  | refused hcode h =>
    have hnot : s.taken = false := by
      have hne : code ≠ 0 := fun hzero => absurd hcode (by rw [hzero]; decide)
      simpa [Shift.taken, hanswer] using hne
    refine ⟨?_, ?_, fun x hx => ?_⟩
    · simp [h.tally, hheld, Shift.total, hnot]
    · simp [h.sets, hnot]
    · rw [List.mem_singleton.1 hx]
      exact ⟨hconn, n, code, hsame, hanswer, .inl hcode⟩
  | @done k hk hfits htally hsets =>
    have htaken : s.taken = true := by simp [Shift.taken, hanswer]
    refine ⟨?_, ?_, fun x hx => ?_⟩
    · have hamount : s.amount = Scalar.combineInt s.op 0 k := by rw [Shift.amount, hk]; rfl
      rw [htally, Scalar.combineInt_eq_add hop]
      simp [Shift.total, htaken, hamount]
    · simp [hsets, htaken]
    · rw [List.mem_singleton.1 hx]
      exact ⟨hconn, n, 0, hsame, hanswer, .inr ⟨rfl, k, hk, hfits⟩⟩

/-- One line that is read as a record. -/
theorem booked_record (hdev : dev.LeavesAlone name) (hopen : t.conn.isClosed = false)
    {line : String} {r : Record} (hparse : Record.parse line = .ok r) (hother : ¬ r.Overwrites name)
    (hheld : t.own.values.tally? name = some (b, n)) :
    Booked name b n t (shiftOf? dev name t (.ok line)).toList (processFrame dev t (.ok line)) := by
  have hr : recordOf? (.ok line) = some r := by simp [recordOf?, hparse, Except.toOption]
  obtain ⟨hline, houtput⟩ := unmoved_processLine name dev t hparse
  unfold shiftOf?
  rw [if_neg (by simp [hopen]), hr, processFrame_ok dev hopen, houtput]
  by_cases hset : ∃ op text, r = .set name op text
  · obtain ⟨op, text, rfl⟩ := hset
    have hop : op ≠ .assign := fun hop => hother ⟨rfl, hop⟩
    obtain ⟨code, reason, hreply, hsettled⟩ := settled_receiveSet dev hop text hheld
    have hanswer : replyIn? ((dispatch dev (.set name op text) t).1.conn.output.drop
        t.conn.output.length) = some code := by
      rw [show (dispatch dev (.set name op text) t).1.conn.output = _ from hreply, sendReply,
        send_eq]
      dsimp only
      rw [List.drop_left, replyIn?_reply]
    dsimp only
    rw [if_pos rfl]
    exact (hsettled.trans hline).booked hop rfl hheld rfl hanswer
  · -- a request that names another value is handled like any other record
    have hdispatch := unmoved_dispatch hdev hother (fun op text h => hset ⟨op, text, h⟩) t
    have hunmoved := hdispatch.trans hline
    cases r with
    | set m op text =>
      have hm : m ≠ name := by
        rintro rfl
        exact hset ⟨op, text, rfl⟩
      dsimp only
      rw [if_neg hm]
      exact hunmoved.booked hheld
    | _ => exact hunmoved.booked hheld

/-- **One frame.** -/
theorem booked_processFrame (hdev : dev.LeavesAlone name) {frame : Frame}
    (hframe : ∀ r ∈ recordOf? frame, ¬ r.Overwrites name)
    (hheld : t.own.values.tally? name = some (b, n)) :
    Booked name b n t (shiftOf? dev name t frame).toList (processFrame dev t frame) := by
  cases hclosed : t.conn.isClosed with
  | true =>
    unfold shiftOf? processFrame
    rw [if_pos hclosed, if_pos hclosed]
    exact Unmoved.booked ⟨rfl, rfl⟩ hheld
  | false =>
    have hopen : ¬ t.conn.isClosed = true := by simp [hclosed]
    cases frame with
    | error e =>
      unfold shiftOf?
      rw [if_neg hopen, processFrame_error dev hclosed]
      exact Unmoved.booked ⟨rfl, setsOf_countParseError _⟩ hheld
    | ok line =>
      cases hparse : Record.parse line with
      | error e =>
        have hnone : recordOf? (.ok line) = none := by simp [recordOf?, hparse, Except.toOption]
        unfold shiftOf?
        rw [if_neg hopen, hnone, processFrame_ok dev hclosed]
        rcases processLine_error dev t hparse with h | h
        · rw [h]
          exact Unmoved.booked ⟨rfl, rfl⟩ hheld
        · rw [h]
          exact Unmoved.booked ⟨rfl, setsOf_countParseError _⟩ hheld
      | ok r =>
        have hr : r ∈ recordOf? (.ok line) := by simp [recordOf?, hparse, Except.toOption]
        exact booked_record hdev hclosed hparse (hframe r hr) hheld

theorem booked_frames (hdev : dev.LeavesAlone name) {frames : List Frame}
    (hframes : ∀ frame ∈ frames, ∀ r ∈ recordOf? frame, ¬ r.Overwrites name)
    (hheld : t.own.values.tally? name = some (b, n)) :
    Booked name b n t (shiftsOf dev name frames t) (frames.foldl (processFrame dev) t) := by
  induction frames generalizing t n with
  | nil => exact Unmoved.booked ⟨rfl, rfl⟩ hheld
  | cons frame frames ih =>
    have hfirst := booked_processFrame hdev (hframes frame List.mem_cons_self) hheld
    have hid := (converses_processFrame (Q := fun _ => True) dev t frame).id
    exact hfirst.append hid (ih (fun x hx => hframes x (List.mem_cons_of_mem _ hx)) hfirst.tally)

/-- **Bytes of a peer.** -/
theorem booked_receive (hdev : dev.LeavesAlone name) (now : Instant) {bytes : Bytes}
    (hframes : ∀ frame ∈ (t.conn.input.push bytes).1, ∀ r ∈ recordOf? frame, ¬ r.Overwrites name)
    (hheld : t.own.values.tally? name = some (b, n)) :
    Booked name b n t (shiftsIn dev name now bytes t) (receive dev now bytes t) := by
  have hbooked := booked_frames (t := t.onConn fun c => { c with
    lastActivity := now, lastKeepalive := none, input := (t.conn.input.push bytes).2 })
    hdev hframes hheld
  exact ⟨hbooked.tally, hbooked.sets, hbooked.fair⟩

/-! ## Reading from a stream -/

theorem setsOf_endOfInput (c : Connection τ) : c.endOfInput.setsOf name = c.setsOf name := by
  unfold endOfInput
  dsimp only
  split
  · split
    · exact setsOf_finishClose _ _
    · rfl
  · exact setsOf_finishClose _ _

/-- The requests among what is read from a stream. -/
def shiftsFor (T : Transport τ) (dev : Device σ) (name : String) (now : Instant) :
    Nat → Turn τ σ → List Shift
  | 0, _ => []
  | readings + 1, t =>
    match t.conn.wantsRead, t.conn.link with
    | true, .stream s =>
      let (answer, s) := T.read readChunk s
      let t := t.onConn fun c => { c with link := .stream s }
      match answer with
      | .data (b :: bs) =>
        shiftsIn dev name now (b :: bs) t ++
          shiftsFor T dev name now readings (receive dev now (b :: bs) t)
      | _ => []
    | _, _ => []

/-- **A stream that is read.** The induction is on the readings left, like the reading itself. -/
theorem booked_readFor (hdev : dev.LeavesAlone name) (T : Transport τ) (now : Instant)
    (readings : Nat) (moved : Bool)
    (hframes : ∀ frame ∈ heardFor T dev now readings t, ∀ r ∈ recordOf? frame, ¬ r.Overwrites name)
    (hheld : t.own.values.tally? name = some (b, n)) :
    Booked name b n t (shiftsFor T dev name now readings t)
      (readFor T dev now readings moved t).2 := by
  induction readings generalizing moved t n with
  | zero => exact Unmoved.booked ⟨rfl, rfl⟩ hheld
  | succ readings ih =>
    unfold heardFor at hframes
    unfold readFor shiftsFor
    cases hwants : t.conn.wantsRead with
    | false => exact Unmoved.booked ⟨rfl, rfl⟩ hheld
    | true =>
      cases hlink : t.conn.link with
      | detached => exact Unmoved.booked ⟨rfl, rfl⟩ hheld
      | connecting address => exact Unmoved.booked ⟨rfl, rfl⟩ hheld
      | stream s =>
        cases hread : T.read readChunk s with
        | mk answer next =>
          simp only [hwants, hlink, hread] at hframes ⊢
          cases answer with
          | notReady => exact Unmoved.booked ⟨rfl, rfl⟩ hheld
          | wouldBlock => exact Unmoved.booked ⟨rfl, rfl⟩ hheld
          | endOfStream => exact Unmoved.booked ⟨rfl, setsOf_endOfInput _⟩ hheld
          | failed reason => exact Unmoved.booked ⟨rfl, setsOf_finishClose _ _⟩ hheld
          | data bytes =>
            cases bytes with
            | nil => exact Unmoved.booked ⟨rfl, setsOf_endOfInput _⟩ hheld
            | cons x xs =>
              let linked := t.onConn fun c => { c with link := .stream next }
              have hfirst : Booked name b n linked _ _ := booked_receive hdev now
                (fun f hf => hframes f (List.mem_append_left _ hf)) hheld
              have hid := (converses_receive (Q := fun _ => True) dev now (x :: xs) linked).id
              have hboth := hfirst.append hid
                (ih true (fun f hf => hframes f (List.mem_append_right _ hf)) hfirst.tally)
              exact ⟨hboth.tally, hboth.sets, hboth.fair⟩

end

/-! ## What else is done to a connection -/

theorem setsOf_queueCommand (urgent : Bool) (command : Command) (c : Connection τ) :
    (c.queueCommand urgent command).2.setsOf name = c.setsOf name :=
  congrArg (List.countP _) (events_queueCommand urgent command c).1

theorem setsOf_close (reason : CloseReason) (c : Connection τ) :
    (c.close reason).setsOf name = c.setsOf name := by
  unfold close
  split
  · rfl
  · split
    · rfl
    · exact setsOf_finishClose _ c
  · split
    · rfl
    · exact setsOf_finishClose _ c

theorem setsOf_broadcastDirty (values : Registry) (c : Connection τ) :
    (c.broadcastDirty values).setsOf name = c.setsOf name := by
  unfold broadcastDirty
  split
  · exact congrArg (List.countP _) (events_sendValues _ c)
  · rfl

theorem setsOf_writePass (T : Transport τ) (c : Connection τ) :
    (c.writePass T).2.setsOf name = c.setsOf name :=
  writePass_induct (P := fun d => d.setsOf name = c.setsOf name) (fun _ _ h => h) (fun _ _ h => h)
    (fun d reason h => (setsOf_finishClose reason d).trans h) T rfl

theorem setsOf_pollConnect (answer : ConnectAnswer τ) (now : Instant) (c : Connection τ) :
    (c.pollConnect answer now).2.setsOf name = c.setsOf name := by
  unfold pollConnect
  split
  · exact (setsOf_pump _).trans (setsOf_emit rfl _)
  · exact setsOf_finishClose _ c
  · rfl

theorem setsOf_errorPass (T : Transport τ) (c : Connection τ) :
    (c.errorPass T).2.setsOf name = c.setsOf name := by
  unfold errorPass
  split <;> rfl

theorem setsOf_endChild (exit : ChildExit) (h : Helper τ) (c : Connection τ) :
    (c.endChild exit h).setsOf name = c.setsOf name := by
  have hnone : (if h.ended then [] else [Event.childEnded c.id h.pid exit]).countP
      (Event.isSetOf name) = 0 := by
    split <;> rfl
  show List.countP _ (c.events ++ _) = _
  rw [List.countP_append, hnone]
  rfl

theorem setsOf_childReturned (exit : ChildExit) (c : Connection τ) :
    (c.childReturned exit).setsOf name = c.setsOf name := by
  cases hchild : c.helper with
  | none =>
    unfold childReturned
    rw [hchild]
  | some h =>
    rw [childReturned_eq hchild]
    split
    · exact (setsOf_finishClose _ _).trans (setsOf_endChild _ _ c)
    · exact setsOf_endChild _ _ c

theorem setsOf_watchSilence (now : Instant) (timeout : Duration) (c : Connection τ) :
    (c.watchSilence now timeout).setsOf name = c.setsOf name := by
  unfold watchSilence
  dsimp only
  split
  · exact setsOf_finishClose _ c
  · cases c.lastKeepalive <;> dsimp only <;> split <;> rfl

theorem setsOf_idle (now : Instant) (c : Connection τ) :
    (c.idle now).setsOf name = c.setsOf name := by
  have hdealt : (c.idleEstablished now).setsOf name = c.setsOf name := by
    unfold idleEstablished
    split
    · dsimp only
      split
      · exact setsOf_pump c
      · exact (setsOf_watchSilence now _ _).trans (setsOf_pump c)
    · rfl
  unfold idle
  split
  · split
    · rw [killOverdue_eq]
      exact (setsOf_finishClose _ _).trans (setsOf_endChild _ _ c)
    · exact hdealt
  · exact hdealt

end Connection

end Observatory
