import Mathlib.Data.List.Induction
import Observatory.Proofs.Connection.Acts
import Observatory.Proofs.Connection.Chunks
import Observatory.Proofs.Connection.Rulings
/-!
# How much a connection puts up with

A malformed frame is dropped and counted, one that is understood starts the count anew, and a blank
line is passed over. A frame can be malformed in three ways: it is no line, its line is no record,
or the record does not fit what it is about. One malformed frame more than a connection puts up with
in a row closes it.

* `Grade.Exceeds`, `Grade.exceeds_concat_iff` — too many bad frames without a good one among them.
* `Connection.grade`, `Connection.take` — what a frame counts as, and what it does if nobody minds.
* `Connection.processFrame_eq` — one frame, while the connection still puts up with its peer.
* `Connection.endures_run`, `Connection.closed_iff_exceeds` — any number of frames.
-/

namespace Observatory

/-! ## Grades -/

/-- What a frame is to a connection that counts the malformed ones. -/
inductive Grade where
  | blank
  | bad
  | good
  deriving DecidableEq

namespace Grade

/-- The number of bad frames in a row after one more frame. -/
def tally (n : Nat) : Grade → Nat
  | blank => n
  | bad => n + 1
  | good => 0

/-- The number of bad frames in a row at the end. -/
def row (grades : List Grade) : Nat := grades.foldl tally 0

/-- Somewhere there is one bad frame more than the limit, without a good one among them. -/
def Exceeds (limit : Nat) (grades : List Grade) : Prop :=
  ∃ before group behind, grades = before ++ group ++ behind ∧ good ∉ group ∧
    group.count bad = limit + 1

theorem row_concat (grades : List Grade) (g : Grade) :
    row (grades ++ [g]) = g.tally (row grades) := by
  simp [row]

theorem tally_le (n : Nat) (g : Grade) : g.tally n ≤ n + 1 := by
  cases g with
  | blank => exact Nat.le_succ n
  | bad => exact Nat.le_refl _
  | good => exact Nat.zero_le _

/-- The bad frames in a row stand in a group at the end. -/
theorem exists_group (grades : List Grade) : ∃ before group, grades = before ++ group ∧
    good ∉ group ∧ group.count bad = row grades := by
  induction grades using List.reverseRecOn with
  | nil => exact ⟨[], [], rfl, List.not_mem_nil, rfl⟩
  | append_singleton grades g ih =>
    obtain ⟨before, group, hgrades, hgood, hcount⟩ := ih
    rw [row_concat, ← hcount]
    cases g with
    | good => exact ⟨grades ++ [good], [], by simp, by simp, rfl⟩
    | blank => exact ⟨before, group ++ [blank], by simp [hgrades], by simp [hgood], by simp [tally]⟩
    | bad => exact ⟨before, group ++ [bad], by simp [hgrades], by simp [hgood], by simp [tally]⟩

theorem count_le_row {group : List Grade} (hgood : good ∉ group) (before : List Grade) :
    group.count bad ≤ row (before ++ group) := by
  induction group using List.reverseRecOn with
  | nil => exact Nat.zero_le _
  | append_singleton group g ih =>
    obtain ⟨hgroup, hg⟩ : good ∉ group ∧ good ≠ g := by simpa using hgood
    have hle := ih hgroup
    rw [← List.append_assoc, row_concat, List.count_append]
    cases g with
    | good => exact absurd rfl hg
    | blank => simpa [tally] using hle
    | bad => simpa [tally] using hle

variable {limit : Nat} {grades : List Grade}

theorem not_exceeds_nil : ¬ Exceeds limit [] := by
  rintro ⟨before, group, behind, hnil, -, hcount⟩
  have hgroup : group = [] := by simp_all
  rw [hgroup] at hcount
  cases hcount

theorem Exceeds.append (h : Exceeds limit grades) (more : List Grade) :
    Exceeds limit (grades ++ more) := by
  obtain ⟨before, group, behind, hgrades, hgood, hcount⟩ := h
  exact ⟨before, group, behind ++ more, by simp [hgrades], hgood, hcount⟩

/-- The first time that a row is too long, it is too long by one. -/
theorem exceeds_of_lt_row (h : limit < row grades) : Exceeds limit grades := by
  induction grades using List.reverseRecOn with
  | nil => exact absurd h (Nat.not_lt_zero limit)
  | append_singleton grades g ih =>
    by_cases hbefore : limit < row grades
    · exact (ih hbefore).append [g]
    · rw [row_concat] at h
      have hle := tally_le (row grades) g
      obtain ⟨before, group, hgroup, hgood, hcount⟩ := exists_group (grades ++ [g])
      rw [row_concat] at hcount
      exact ⟨before, group, [], by simpa using hgroup, hgood, by omega⟩

theorem row_le (h : ¬ Exceeds limit grades) : row grades ≤ limit := by
  by_contra hlt
  exact h (exceeds_of_lt_row (Nat.lt_of_not_le hlt))

/-- **One more frame** exceeds the limit if the row at the end is too long now. -/
theorem exceeds_concat_iff (g : Grade) :
    Exceeds limit (grades ++ [g]) ↔ Exceeds limit grades ∨ limit < row (grades ++ [g]) := by
  constructor
  · rintro ⟨before, group, behind, hgrades, hgood, hcount⟩
    rcases List.eq_nil_or_concat' behind with rfl | ⟨behind, g', rfl⟩
    · right
      rw [hgrades, List.append_nil]
      have hle := count_le_row hgood before
      omega
    · left
      have hinit : grades = before ++ group ++ behind := by
        rw [← List.append_assoc] at hgrades
        exact (List.append_inj' hgrades rfl).1
      exact ⟨before, group, behind, hinit, hgood, hcount⟩
  · rintro (h | h)
    · exact h.append [g]
    · exact exceeds_of_lt_row h

end Grade

namespace Connection

variable {τ σ : Type}

/-! ## What a frame counts as -/

/-- Whether the text of a request is none of the kind of the value that it is for. -/
def misspells (values : Registry) (name : String) (op : Operator) (text : String) : Bool :=
  match values.get? name with
  | none => false
  | some current => current.flags.writable &&
    match current.applyText op text with
    | .error (.parse _) => true
    | _ => false

/-- Whether a record does not fit what it is about: a value that was announced, a kind of values,
or one of our own values. -/
def misreads (t : Turn τ σ) : Record → Bool
  | .value name text => (t.conn.replica? name).any fun r => !(r.receive text).isOk
  | .metaInfo code name description => !(Replica.announce code name description).isOk
  | .set name op text => misspells t.own.values name op text
  | .command opcode params => opcode != "info" && misspells t.own.values opcode .assign params
  | _ => false

/-- What a frame counts as. -/
def grade (t : Turn τ σ) : Framing.Frame → Grade
  | .error _ => .bad
  | .ok line =>
    if Text.isBlankLine line.toList then .blank
    else match Record.parse line with
      | .error _ => .bad
      | .ok r => if misreads t r then .bad else .good

theorem misspells_iff {values : Registry} {name text : String} {op : Operator} :
    misspells values name op text = true ↔ ∃ cause, Misspelt values name op text cause := by
  constructor
  · intro h
    unfold misspells at h
    cases hfound : values.get? name with
    | none => simp [hfound] at h
    | some current =>
      simp only [hfound, Bool.and_eq_true] at h
      obtain ⟨hwritable, happly⟩ := h
      split at happly
      · next cause hcause => exact ⟨cause, current, hfound, hwritable, hcause⟩
      · cases happly
  · rintro ⟨cause, current, hfound, hwritable, happly⟩
    simp [misspells, hfound, hwritable, happly]

theorem isSome_receiveSet (dev : Device σ) (name : String) (op : Operator) (text : String)
    (t : Turn τ σ) :
    (receiveSet dev name op text t).2.isSome = misspells t.own.values name op text := by
  have hruled := ruled_receiveSet dev name op text t
  have hspelt (h : ∀ cause, ¬ Misspelt t.own.values name op text cause) :
      misspells t.own.values name op text = false := by
    rw [← Bool.not_eq_true, misspells_iff]
    exact fun ⟨cause, hcause⟩ => h cause hcause
  have hproposed {current updated : Value}
      (h : Proposes t.own.values name op text current updated) :
      misspells t.own.values name op text = false := by
    have hsays : Says dev t.own name op text (dev.setValue current updated t.own.device).1 :=
      ⟨current, updated, h, rfl⟩
    exact hspelt hsays.not_misspelt
  generalize receiveSet dev name op text t = result at hruled ⊢
  cases hruled with
  | impossible e h hnone => exact (hspelt hnone).symm
  | misspelt h => exact (misspells_iff.2 ⟨_, h⟩).symm
  | vetoed h _ => exact (hproposed h).symm
  | granted h _ => exact (hproposed h).symm

/-- **What a handler complains about** is a record that does not fit what it is about. -/
theorem isSome_dispatch (dev : Device σ) (r : Record) (t : Turn τ σ) :
    (dispatch dev r t).2.isSome = misreads t r := by
  cases r with
  | value name text =>
    simp only [dispatch, replicate, misreads]
    cases t.conn.replica? name with
    | none => rfl
    | some copy =>
      cases hreceive : copy.receive text with
      | ok _ => simp [hreceive, Except.isOk, Except.toBool]
      | error _ => simp [hreceive, Except.isOk, Except.toBool]
  | metaInfo code name description =>
    simp only [dispatch, announce, misreads]
    cases Replica.announce code name description <;> rfl
  | set name op text => exact isSome_receiveSet dev name op text t
  | command opcode params =>
    simp only [dispatch, receiveCommand, misreads]
    by_cases hinfo : opcode = "info"
    · simp [hinfo]
    · by_cases hshort : ((t.own.values.get? opcode).map (·.flags.writable)).getD false = true
      · rw [if_neg hinfo, if_pos hshort, isSome_receiveSet]
        simp [hinfo]
      · rw [if_neg hinfo, if_neg hshort]
        have hspelt : misspells t.own.values opcode .assign params = false := by
          unfold misspells
          cases hfound : t.own.values.get? opcode with
          | none => rfl
          | some current =>
            have hprotected : current.flags.writable = false := by simpa [hfound] using hshort
            simp [hprotected]
        simp [hspelt]
  | _ => rfl

/-! ## What a frame does -/

/-- What the record of a frame does, if it has one. -/
def effect (dev : Device σ) (t : Turn τ σ) (frame : Framing.Frame) : Turn τ σ :=
  match recordOf? frame with
  | none => t
  | some r => (dispatch dev r t).1

/-- One frame to a connection that puts up with everything: what it does, and how it counts. -/
def take (dev : Device σ) (t : Turn τ σ) (frame : Framing.Frame) : Turn τ σ :=
  (effect dev t frame).onConn fun c => { c with parseErrors := (grade t frame).tally c.parseErrors }

/-- Several frames, one after the other. -/
def takeAll (dev : Device σ) (frames : List Framing.Frame) (t : Turn τ σ) : Turn τ σ :=
  frames.foldl (take dev) t

/-- What the frames count as, one after the other. -/
def grades (dev : Device σ) : List Framing.Frame → Turn τ σ → List Grade
  | [], _ => []
  | frame :: frames, t => grade t frame :: grades dev frames (take dev t frame)

theorem takeAll_concat (dev : Device σ) (frames : List Framing.Frame) (last : Framing.Frame)
    (t : Turn τ σ) : takeAll dev (frames ++ [last]) t = take dev (takeAll dev frames t) last := by
  simp [takeAll]

theorem grades_append (dev : Device σ) (frames more : List Framing.Frame) (t : Turn τ σ) :
    grades dev (frames ++ more) t =
      grades dev frames t ++ grades dev more (takeAll dev frames t) := by
  induction frames generalizing t with
  | nil => rfl
  | cons frame frames ih =>
    rw [List.cons_append, grades, ih, grades, List.cons_append]
    rfl

theorem grades_concat (dev : Device σ) (frames : List Framing.Frame) (last : Framing.Frame)
    (t : Turn τ σ) : grades dev (frames ++ [last]) t =
      grades dev frames t ++ [grade (takeAll dev frames t) last] :=
  grades_append dev frames [last] t

/-! ## What no record touches -/

/-- Two connections are as open, and put up with as much. -/
structure SamePatience (c d : Connection τ) : Prop where
  state : d.state = c.state
  parseErrors : d.parseErrors = c.parseErrors
  maxParseErrors : d.maxParseErrors = c.maxParseErrors

theorem SamePatience.refl (c : Connection τ) : SamePatience c c := ⟨rfl, rfl, rfl⟩

theorem SamePatience.trans {c d e : Connection τ} (h : SamePatience c d) (h' : SamePatience d e) :
    SamePatience c e :=
  ⟨h'.state.trans h.state, h'.parseErrors.trans h.parseErrors,
    h'.maxParseErrors.trans h.maxParseErrors⟩

theorem samePatience_replicate (name text : String) (c : Connection τ) :
    SamePatience c (c.replicate name text).1 := by
  unfold replicate
  split
  · exact .refl c
  · split <;> exact ⟨rfl, rfl, rfl⟩

theorem samePatience_announce (code : UInt32) (name description : String) (c : Connection τ) :
    SamePatience c (c.announce code name description).1 := by
  unfold announce
  split <;> exact ⟨rfl, rfl, rfl⟩

theorem samePatience_announceSymbol (name symbol : String) (c : Connection τ) :
    SamePatience c (c.announceSymbol name symbol) := by
  unfold announceSymbol
  split <;> exact ⟨rfl, rfl, rfl⟩

theorem samePatience_receiveStatus (bits : UInt32) (c : Connection τ) :
    SamePatience c (c.receiveStatus bits) := by
  unfold receiveStatus
  dsimp only
  split <;> exact ⟨rfl, rfl, rfl⟩

theorem samePatience_receiveTechnical (text : String) (c : Connection τ) :
    SamePatience c (c.receiveTechnical text) := by
  unfold receiveTechnical
  split <;> exact ⟨rfl, rfl, rfl⟩

theorem samePatience_sendAll (values : Registry) (c : Connection τ) :
    SamePatience c (c.sendAll values) := by
  unfold sendAll
  induction values.values generalizing c with
  | nil => exact .refl c
  | cons v vs ih =>
    have hfirst : SamePatience c (c.sendValue v) := by
      rw [sendValue_eq]
      exact ⟨rfl, rfl, rfl⟩
    exact hfirst.trans (ih _)

theorem samePatience_receiveSet (dev : Device σ) (name : String) (op : Operator) (text : String)
    (t : Turn τ σ) : SamePatience t.conn (receiveSet dev name op text t).1.conn := by
  have hruled := ruled_receiveSet dev name op text t
  generalize receiveSet dev name op text t = result at hruled ⊢
  cases hruled <;> exact ⟨rfl, rfl, rfl⟩

theorem samePatience_receiveInfo (dev : Device σ) (t : Turn τ σ) :
    SamePatience t.conn (receiveInfo dev t).conn := by
  unfold receiveInfo
  dsimp only
  split
  · exact ⟨rfl, rfl, rfl⟩
  · exact (samePatience_sendAll _ t.conn).trans ⟨rfl, rfl, rfl⟩

theorem samePatience_receiveCommand (dev : Device σ) (opcode params : String) (t : Turn τ σ) :
    SamePatience t.conn (receiveCommand dev opcode params t).1.conn := by
  unfold receiveCommand
  split
  · exact samePatience_receiveInfo dev t
  · split
    · exact samePatience_receiveSet dev opcode .assign params t
    · dsimp only
      split <;> exact ⟨rfl, rfl, rfl⟩

/-- **No record but a reply** closes a connection or counts as anything while it is handled. -/
theorem samePatience_dispatch (dev : Device σ) {r : Record} (hreply : r.isReply = false)
    (t : Turn τ σ) : SamePatience t.conn (dispatch dev r t).1.conn := by
  cases r with
  | value name text => exact samePatience_replicate name text t.conn
  | metaInfo code name description => exact samePatience_announce code name description t.conn
  | symbolInfo name symbol => exact samePatience_announceSymbol name symbol t.conn
  | status bits => exact samePatience_receiveStatus bits t.conn
  | blocking bits => exact ⟨rfl, rfl, rfl⟩
  | message m => exact ⟨rfl, rfl, rfl⟩
  | technical text => exact samePatience_receiveTechnical text t.conn
  | reply code reason => exact absurd hreply (by simp [Record.isReply])
  | set name op text => exact samePatience_receiveSet dev name op text t
  | command opcode params => exact samePatience_receiveCommand dev opcode params t

/-- A frame that is read as no reply. -/
def IsNoReply (frame : Framing.Frame) : Prop := ∀ r ∈ recordOf? frame, r.isReply = false

instance (frame : Framing.Frame) : Decidable (IsNoReply frame) :=
  inferInstanceAs (Decidable (∀ r ∈ recordOf? frame, r.isReply = false))

theorem samePatience_effect (dev : Device σ) {frame : Framing.Frame} (hframe : IsNoReply frame)
    (t : Turn τ σ) : SamePatience t.conn (effect dev t frame).conn := by
  unfold effect
  cases hrecord : recordOf? frame with
  | none => exact .refl t.conn
  | some r => exact samePatience_dispatch dev (hframe r hrecord) t

/-! ## One frame -/

theorem countParseError_of_le {c : Connection τ} (h : c.parseErrors + 1 ≤ c.maxParseErrors) :
    c.countParseError = { c with parseErrors := c.parseErrors + 1 } :=
  if_neg (Nat.not_lt.2 h)

theorem countParseError_of_lt {c : Connection τ} (h : c.maxParseErrors < c.parseErrors + 1) :
    c.countParseError = finishClose (.protocol (.tooManyParseErrors (c.parseErrors + 1)))
      { c with parseErrors := c.parseErrors + 1 } :=
  if_pos h

/-- A frame that is not malformed only does what it does. A malformed one counts. -/
theorem processFrame_cases (dev : Device σ) {t : Turn τ σ} (hopen : t.conn.isClosed = false)
    (frame : Framing.Frame) :
    grade t frame ≠ .bad ∧ processFrame dev t frame = take dev t frame ∨
      grade t frame = .bad ∧
        processFrame dev t frame = (effect dev t frame).onConn countParseError := by
  cases frame with
  | error e => exact .inr ⟨rfl, processFrame_error dev hopen e⟩
  | ok line =>
    rw [processFrame_ok dev hopen]
    cases hparse : Record.parse line with
    | error e =>
      have hnone : effect dev t (.ok line) = t := by
        simp [effect, recordOf?, hparse, Except.toOption]
      by_cases hblank : Text.isBlankLine line.toList = true
      · left
        have hgrade : grade t (.ok line) = .blank := if_pos hblank
        rw [take, hgrade, hnone]
        exact ⟨by decide, if_pos hblank⟩
      · right
        rw [hnone]
        simp [grade, processLine, hblank, hparse]
    | ok r =>
      have hblank : Text.isBlankLine line.toList ≠ true := by
        intro hblank
        rw [parse_of_isBlankLine hblank] at hparse
        cases hparse
      have hsome : effect dev t (.ok line) = (dispatch dev r t).1 := by
        simp [effect, recordOf?, hparse, Except.toOption]
      have hgrade : grade t (.ok line) = if misreads t r then .bad else .good := by
        simp [grade, hblank, hparse]
      rw [processLine_ok dev t hparse, take, hsome, hgrade, ← isSome_dispatch dev]
      generalize dispatch dev r t = handled
      obtain ⟨t', complaint⟩ := handled
      cases complaint with
      | none => exact .inl ⟨by simp, rfl⟩
      | some e => exact .inr ⟨rfl, rfl⟩

/-- **One frame** while the limit is not reached: it does what it does, and if it is one malformed
frame too many, it closes the connection on top of that. -/
theorem processFrame_eq (dev : Device σ) {t : Turn τ σ} {frame : Framing.Frame}
    (hframe : IsNoReply frame) (hopen : t.conn.isClosed = false)
    (hrow : t.conn.parseErrors ≤ t.conn.maxParseErrors) :
    processFrame dev t frame =
      if t.conn.maxParseErrors < (grade t frame).tally t.conn.parseErrors then
        (take dev t frame).onConn
          (finishClose (.protocol (.tooManyParseErrors (t.conn.maxParseErrors + 1))))
      else take dev t frame := by
  have hsame := samePatience_effect dev hframe t
  rcases processFrame_cases dev hopen frame with ⟨hgrade, hprocess⟩ | ⟨hgrade, hprocess⟩
  · have htally : (grade t frame).tally t.conn.parseErrors ≤ t.conn.maxParseErrors := by
      cases hg : grade t frame with
      | blank => exact hrow
      | bad => exact absurd hg hgrade
      | good => exact Nat.zero_le _
    rw [if_neg (Nat.not_lt.2 htally), hprocess]
  · rw [hprocess, take, hgrade]
    by_cases hlt : t.conn.maxParseErrors < t.conn.parseErrors + 1
    · have hfull : t.conn.parseErrors = t.conn.maxParseErrors := by omega
      have hcount : (effect dev t frame).conn.countParseError = _ :=
        countParseError_of_lt (by rwa [hsame.maxParseErrors, hsame.parseErrors])
      rw [Grade.tally, if_pos hlt, Turn.onConn, hcount, hsame.parseErrors, hfull]
      simp only [Turn.onConn, Grade.tally, hsame.parseErrors, hfull]
    · have hcount : (effect dev t frame).conn.countParseError = _ :=
        countParseError_of_le (by rw [hsame.maxParseErrors, hsame.parseErrors]; omega)
      rw [Grade.tally, if_neg hlt, Turn.onConn, hcount]
      rfl

/-! ## Any number of frames -/

variable {t : Turn τ σ} {frames : List Framing.Frame}

/-- **The count** of a connection that puts up with everything is the number of bad frames in a row,
and nothing closes it. -/
theorem takeAll_count (dev : Device σ) (hframes : ∀ frame ∈ frames, IsNoReply frame)
    (hzero : t.conn.parseErrors = 0) :
    (takeAll dev frames t).conn.state = t.conn.state ∧
      (takeAll dev frames t).conn.maxParseErrors = t.conn.maxParseErrors ∧
      (takeAll dev frames t).conn.parseErrors = Grade.row (grades dev frames t) := by
  induction frames using List.reverseRecOn with
  | nil => exact ⟨rfl, rfl, hzero⟩
  | append_singleton frames last ih =>
    obtain ⟨hstate, hmax, hrow⟩ := ih fun frame hframe => hframes frame (by simp [hframe])
    have hsame := samePatience_effect dev (hframes last (by simp)) (takeAll dev frames t)
    rw [takeAll_concat, grades_concat, Grade.row_concat, ← hrow, ← hsame.parseErrors]
    exact ⟨hsame.state.trans hstate, hsame.maxParseErrors.trans hmax, rfl⟩

/-- What becomes of a turn with some frames: the limit is kept, and every frame does what it does,
or it is exceeded by one of the frames, and the connection is closed with it. -/
inductive Endures (dev : Device σ) (t : Turn τ σ) (frames : List Framing.Frame) : Turn τ σ → Prop
  | kept (h : ¬ Grade.Exceeds t.conn.maxParseErrors (grades dev frames t)) :
    Endures dev t frames (takeAll dev frames t)
  | cut {earlier later : List Framing.Frame} {last : Framing.Frame}
    (hsplit : frames = earlier ++ last :: later)
    (hkept : ¬ Grade.Exceeds t.conn.maxParseErrors (grades dev earlier t))
    (hexceeds : Grade.Exceeds t.conn.maxParseErrors (grades dev (earlier ++ [last]) t)) :
    Endures dev t frames ((takeAll dev (earlier ++ [last]) t).onConn
      (finishClose (.protocol (.tooManyParseErrors (t.conn.maxParseErrors + 1)))))

/-- One more frame, as long as the limit is kept. -/
theorem endures_concat (dev : Device σ) {last : Framing.Frame}
    (hframes : ∀ frame ∈ frames ++ [last], IsNoReply frame) (hopen : t.conn.isClosed = false)
    (hzero : t.conn.parseErrors = 0)
    (hkept : ¬ Grade.Exceeds t.conn.maxParseErrors (grades dev frames t)) :
    Endures dev t (frames ++ [last]) (processFrame dev (takeAll dev frames t) last) := by
  obtain ⟨hstate, hmax, hrow⟩ :=
    takeAll_count dev (fun frame hframe => hframes frame (List.mem_append_left _ hframe)) hzero
  have hstays : (takeAll dev frames t).conn.isClosed = false := by
    rw [isClosed, hstate]
    exact hopen
  have hle : (takeAll dev frames t).conn.parseErrors ≤
      (takeAll dev frames t).conn.maxParseErrors := by
    rw [hrow, hmax]
    exact Grade.row_le hkept
  rw [processFrame_eq dev (hframes last (by simp)) hstays hle, hmax, hrow, ← Grade.row_concat,
    ← grades_concat, ← takeAll_concat]
  by_cases hlt : t.conn.maxParseErrors < Grade.row (grades dev (frames ++ [last]) t)
  · rw [if_pos hlt]
    exact .cut rfl hkept (Grade.exceeds_of_lt_row hlt)
  · rw [if_neg hlt]
    refine .kept ?_
    rw [grades_concat, Grade.exceeds_concat_iff, ← grades_concat]
    exact not_or.2 ⟨hkept, hlt⟩

/-- **A run of frames** keeps the limit, or is cut short by the frame that exceeds it. -/
theorem endures_run (dev : Device σ) (hframes : ∀ frame ∈ frames, IsNoReply frame)
    (hopen : t.conn.isClosed = false) (hzero : t.conn.parseErrors = 0) :
    Endures dev t frames (frames.foldl (processFrame dev) t) := by
  induction frames using List.reverseRecOn with
  | nil => exact .kept Grade.not_exceeds_nil
  | append_singleton frames last ih =>
    have hrun := ih fun frame hframe => hframes frame (List.mem_append_left _ hframe)
    rw [List.foldl_append, List.foldl_cons, List.foldl_nil]
    generalize frames.foldl (processFrame dev) t = after at hrun ⊢
    cases hrun with
    | kept h => exact endures_concat dev hframes hopen hzero h
    | @cut earlier later cut hsplit hkept hexceeds =>
      -- a closed connection handles no frame
      have hskip (u : Turn τ σ) (reason : CloseReason) :
          processFrame dev (u.onConn (finishClose reason)) last = u.onConn (finishClose reason) :=
        if_pos rfl
      have hlonger : frames ++ [last] = earlier ++ cut :: (later ++ [last]) := by simp [hsplit]
      rw [hskip]
      exact .cut hlonger hkept hexceeds

theorem Endures.isClosed_iff {dev : Device σ} {after : Turn τ σ}
    (hframes : ∀ frame ∈ frames, IsNoReply frame) (hopen : t.conn.isClosed = false)
    (hzero : t.conn.parseErrors = 0) (h : Endures dev t frames after) :
    after.conn.isClosed = true ↔
      Grade.Exceeds t.conn.maxParseErrors (grades dev frames t) := by
  cases h with
  | kept h =>
    have hstays : (takeAll dev frames t).conn.isClosed = false := by
      rw [isClosed, (takeAll_count dev hframes hzero).1]
      exact hopen
    exact iff_of_false (by simp [hstays]) h
  | @cut earlier later last hsplit _ hexceeds =>
    have hall : Grade.Exceeds t.conn.maxParseErrors (grades dev frames t) := by
      rw [hsplit, List.append_cons, grades_append]
      exact hexceeds.append _
    exact iff_of_true rfl hall

theorem Endures.parseErrors_le {dev : Device σ} {after : Turn τ σ}
    (hframes : ∀ frame ∈ frames, IsNoReply frame) (hzero : t.conn.parseErrors = 0)
    (h : Endures dev t frames after) : after.conn.parseErrors ≤ t.conn.maxParseErrors + 1 := by
  cases h with
  | kept h =>
    rw [(takeAll_count dev hframes hzero).2.2]
    exact Nat.le_succ_of_le (Grade.row_le h)
  | @cut earlier later last hsplit hkept _ =>
    have hupto : ∀ frame ∈ earlier ++ [last], IsNoReply frame := by
      intro frame hframe
      apply hframes
      rw [hsplit, List.append_cons]
      exact List.mem_append_left later hframe
    show (takeAll dev (earlier ++ [last]) t).conn.parseErrors ≤ _
    rw [(takeAll_count dev hupto hzero).2.2, grades_concat, Grade.row_concat]
    exact Nat.le_trans (Grade.tally_le _ _) (Nat.succ_le_succ (Grade.row_le hkept))

/-- However the bytes are cut, what closes a connection is what their lines count as. -/
theorem isClosed_receiveAll_iff (dev : Device σ) {chunks : List (Instant × Bytes)}
    (hframes : ∀ frame ∈ t.conn.input.framesOfChunks (chunks.map Prod.snd), IsNoReply frame)
    (hopen : t.conn.isClosed = false) (hzero : t.conn.parseErrors = 0) :
    (receiveAll dev chunks t).conn.isClosed = true ↔ Grade.Exceeds t.conn.maxParseErrors
      (grades dev (t.conn.input.framesOfChunks (chunks.map Prod.snd)) t) := by
  obtain ⟨hearing, hall⟩ := receiveAll_eq dev chunks t
  have hclosed := (endures_run dev hframes hopen hzero).isClosed_iff hframes hopen hzero
  rw [hall]
  exact hclosed

/-- **A connection closes** when it gets one malformed frame more than it puts up with, without a
good one among them, and not before, however the bytes of the frames were cut. Up to there every frame did what it does, malformed ones that
are answered included, and nothing behind it does anything. The count never exceeds the limit by
more than one. -/
theorem closed_iff_exceeds (dev : Device σ) (hframes : ∀ frame ∈ frames, IsNoReply frame)
    (hopen : t.conn.isClosed = false) (hzero : t.conn.parseErrors = 0) :
    let limit := t.conn.maxParseErrors
    let after := frames.foldl (processFrame dev) t
    (after.conn.isClosed = true ↔ Grade.Exceeds limit (grades dev frames t)) ∧
      (after.conn.isClosed = false → after = takeAll dev frames t) ∧
      (after.conn.isClosed = true → ∃ earlier last later, frames = earlier ++ last :: later ∧
        ¬ Grade.Exceeds limit (grades dev earlier t) ∧
        Grade.Exceeds limit (grades dev (earlier ++ [last]) t) ∧
        after = (takeAll dev (earlier ++ [last]) t).onConn
          (finishClose (.protocol (.tooManyParseErrors (limit + 1))))) ∧
      after.conn.parseErrors ≤ limit + 1 ∧
      ∀ chunks : List (Instant × Bytes),
        t.conn.input.framesOfChunks (chunks.map Prod.snd) = frames →
          ((receiveAll dev chunks t).conn.isClosed = true ↔
            Grade.Exceeds limit (grades dev frames t)) := by
  intro limit after
  have hrun : Endures dev t frames after := endures_run dev hframes hopen hzero
  have hclosed := hrun.isClosed_iff hframes hopen hzero
  refine ⟨hclosed, ?_, ?_, hrun.parseErrors_le hframes hzero, fun chunks hchunks => ?_⟩
  · intro hstays
    generalize after = u at hrun hstays ⊢
    cases hrun with
    | kept _ => rfl
    | cut _ _ _ => cases hstays
  · intro hcloses
    have hexceeds := hclosed.1 hcloses
    generalize after = u at hrun ⊢
    cases hrun with
    | kept h => exact absurd hexceeds h
    | cut hsplit hkept hexceeds => exact ⟨_, _, _, hsplit, hkept, hexceeds, rfl⟩
  · subst hchunks
    exact isClosed_receiveAll_iff dev hframes hopen hzero

/-- Noise, a blank line, a word instead of a number, and a record with nothing in it, to a
connection that puts up with two malformed frames. -/
theorem closed_of_noise :
    let position : Value := { name := "POS", description := "position of the mirror",
                              flags := { writable := true }, contents := .scalar (.integer 0) }
    let ui : Connection Unit := (inMemory 1 .client "ui" 0).setMaxParseErrors 2
    let t : Turn Unit Unit := ⟨ui, ⟨⟨[position]⟩, ()⟩⟩
    let frames : List Framing.Frame :=
      [.ok "S 1", .error .invalidUtf8, .ok " ", .ok "POS far", .ok "V", .ok "S 5"]
    (∀ frame ∈ frames, IsNoReply frame) ∧
      grades Device.passive frames t = [.good, .bad, .blank, .bad, .bad, .good] ∧
      (frames.foldl (processFrame Device.passive) t).conn.isClosed = true := by
  intro position ui t frames
  have hframes : ∀ frame ∈ frames, IsNoReply frame := by decide +kernel
  have hgrades : grades Device.passive frames t = [.good, .bad, .blank, .bad, .bad, .good] := rfl
  have hexceeds : Grade.Exceeds 2 (grades Device.passive frames t) :=
    ⟨[.good], [.bad, .blank, .bad, .bad], [.good], hgrades, by decide, by decide⟩
  exact ⟨hframes, hgrades, (closed_iff_exceeds Device.passive hframes rfl rfl).1.2 hexceeds⟩

end Connection

end Observatory
