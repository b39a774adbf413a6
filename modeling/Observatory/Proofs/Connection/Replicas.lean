import Observatory.Proofs.Connection.Chunks
import Observatory.Proofs.Connection.Written
import Observatory.Proofs.Publication.Fidelity
import Observatory.Proofs.Session.Safety
import Observatory.Proofs.Value.AllOrNothing
/-!
# Replicas are independent

The replica of a name is made of the records about that name and of nothing else: whatever a peer
sends beside them, whatever it sends that is malformed, and whatever the endpoint answers, the
replica is the fold of those records.

* `replica?_processFrame` — one frame, with a case for each record that is about a name.
* `replica?_frames` — a run of frames: the fold of the records about the name.
* `replica_independent` — two runs that agree on these records agree on the replica.
-/

namespace Observatory

/-! ## What the records about a name say -/

/-- What a record makes of the replica of the name that it is about. A text that is refused and a
type word that means nothing leave it as it is. -/
def Replica.after (old : Option Replica) : Record → Option Replica
  | .metaInfo code name description =>
    match Replica.announce code name description with
    | .ok r => some r
    | .error _ => old
  | .symbolInfo _ symbol => old.map fun r => r.addSymbol symbol
  | .value _ text => old.map fun r => (r.receive text).toOption.getD r
  | _ => old

/-- The record that a frame is read as, if it is one about the name. -/
def Record.ofFrameAbout? (name : String) (frame : Framing.Frame) : Option Record :=
  (Connection.recordOf? frame).filter fun r => r.about? = some name

/-- The records about a name among the lines, in their order. -/
def recordsAbout (name : String) (frames : List Framing.Frame) : List Record :=
  frames.filterMap (Record.ofFrameAbout? name)

/-- Whether an event reports that a pushed value was taken over. -/
def Event.isValueChanged : Event → Bool
  | .valueChanged _ _ => true
  | _ => false

namespace Connection

variable {τ σ : Type}

/-! ## Everything else leaves the replicas alone -/

theorem replicas_sendValues (values : List Value) (c : Connection τ) :
    (values.foldl (fun c v => c.sendValue v) c).replicas = c.replicas := by
  induction values generalizing c with
  | nil => rfl
  | cons v vs ih => rw [List.foldl_cons, ih, sendValue_eq]

theorem replicas_pump (c : Connection τ) : c.pump.replicas = c.replicas := by
  unfold pump
  split
  · dsimp only
    split <;> rfl
  · rfl

theorem replicas_pollConnect (answer : ConnectAnswer τ) (now : Instant) (c : Connection τ) :
    (c.pollConnect answer now).2.replicas = c.replicas := by
  unfold pollConnect
  split
  · exact replicas_pump _
  · rfl
  · rfl

theorem replicas_endOfInput (c : Connection τ) : c.endOfInput.replicas = c.replicas := by
  unfold endOfInput
  dsimp only
  split
  · split <;> rfl
  · rfl

theorem replicas_errorPass (T : Transport τ) (c : Connection τ) :
    (c.errorPass T).2.replicas = c.replicas := by
  unfold errorPass
  split <;> rfl

theorem replicas_receiveStatus (bits : UInt32) (c : Connection τ) :
    (c.receiveStatus bits).replicas = c.replicas := by
  unfold receiveStatus
  dsimp only
  split <;> rfl

theorem replicas_receiveTechnical (text : String) (c : Connection τ) :
    (c.receiveTechnical text).replicas = c.replicas := by
  unfold receiveTechnical
  split <;> rfl

theorem replicas_receiveReply (code : Int32) (reason : String) (c : Connection τ) :
    (c.receiveReply code reason).replicas = c.replicas := by
  unfold receiveReply
  split
  · rfl
  · split
    · rfl
    · split
      · rfl
      · dsimp only
        rw [replicas_pump]
        split <;> rfl

theorem replicas_receiveSet (dev : Device σ) (name : String) (op : Operator) (text : String)
    (t : Turn τ σ) : (receiveSet dev name op text t).1.conn.replicas = t.conn.replicas := by
  unfold receiveSet
  dsimp only
  split
  · rfl
  · split
    · rfl
    · split
      · rfl
      · rfl
      · split <;> rfl

theorem replicas_receiveInfo (dev : Device σ) (t : Turn τ σ) :
    (receiveInfo dev t).conn.replicas = t.conn.replicas := by
  unfold receiveInfo
  dsimp only
  split
  · rfl
  · exact replicas_sendValues _ t.conn

theorem replicas_receiveCommand (dev : Device σ) (opcode params : String) (t : Turn τ σ) :
    (receiveCommand dev opcode params t).1.conn.replicas = t.conn.replicas := by
  unfold receiveCommand
  split
  · exact replicas_receiveInfo dev t
  · split
    · exact replicas_receiveSet dev opcode .assign params t
    · dsimp only
      split <;> rfl

theorem replicas_countParseError (c : Connection τ) :
    c.countParseError.replicas = c.replicas := by
  rcases countParseError_cases c with h | h
  · rw [h]
  · rw [h]
    rfl

/-! ## One frame -/

theorem replica?_putReplica (n name : String) (r : Replica) (c : Connection τ) :
    (c.putReplica name r).replica? n = if n = name then some r else c.replica? n :=
  filed_insertReplica name r c.replicas n

theorem replica?_of_replicas {c d : Connection τ} (h : d.replicas = c.replicas) (name : String) :
    d.replica? name = c.replica? name := by
  unfold replica?
  rw [h]

theorem replica?_replicate (n name text : String) (c : Connection τ) :
    (c.replicate name text).1.replica? n =
      if name = n then Replica.after (c.replica? n) (.value name text) else c.replica? n := by
  unfold replicate Replica.after
  by_cases hn : name = n
  · subst hn
    rw [if_pos rfl]
    cases hr : c.replica? name with
    | none => exact hr
    | some r =>
      dsimp only [Option.map_some]
      cases hreceive : r.receive text with
      | ok s =>
        dsimp only [Except.toOption, Option.getD]
        show (c.putReplica name s).replica? name = some s
        rw [replica?_putReplica, if_pos rfl]
      | error e => exact hr
  · rw [if_neg hn]
    cases c.replica? name with
    | none => rfl
    | some r =>
      dsimp only
      cases r.receive text with
      | ok s =>
        show (c.putReplica name s).replica? n = c.replica? n
        rw [replica?_putReplica, if_neg (Ne.symm hn)]
      | error e => rfl

theorem replica?_announce (n : String) (code : UInt32) (name description : String)
    (c : Connection τ) : (c.announce code name description).1.replica? n =
      if name = n then Replica.after (c.replica? n) (.metaInfo code name description)
      else c.replica? n := by
  unfold announce Replica.after
  cases h : Replica.announce code name description with
  | ok r =>
    dsimp only
    rw [replica?_putReplica]
    by_cases hn : name = n
    · rw [if_pos hn, if_pos hn.symm, h]
    · rw [if_neg hn, if_neg (Ne.symm hn)]
  | error e =>
    dsimp only
    rw [h, ite_self]

theorem replica?_announceSymbol (n name symbol : String) (c : Connection τ) :
    (c.announceSymbol name symbol).replica? n =
      if name = n then Replica.after (c.replica? n) (.symbolInfo name symbol)
      else c.replica? n := by
  unfold announceSymbol Replica.after
  by_cases hn : name = n
  · subst hn
    rw [if_pos rfl]
    cases hr : c.replica? name with
    | none => exact hr
    | some r =>
      dsimp only
      rw [replica?_putReplica, if_pos rfl]
      rfl
  · rw [if_neg hn]
    cases c.replica? name with
    | none => rfl
    | some r =>
      dsimp only
      rw [replica?_putReplica, if_neg (Ne.symm hn)]

/-- **One record.** It makes of the replica of the name that it is about what it says, and leaves
every other replica alone. -/
theorem replica?_dispatch (dev : Device σ) (n : String) (r : Record) (t : Turn τ σ) :
    (dispatch dev r t).1.conn.replica? n =
      if r.about? = some n then Replica.after (t.conn.replica? n) r else t.conn.replica? n := by
  have hother {r : Record} (hnone : r.about? = none)
      (h : (dispatch dev r t).1.conn.replicas = t.conn.replicas) :
      (dispatch dev r t).1.conn.replica? n =
        if r.about? = some n then Replica.after (t.conn.replica? n) r else t.conn.replica? n := by
    rw [hnone, if_neg (by simp), replica?_of_replicas h]
  cases r with
  | value name text =>
    simp only [Record.about?, Option.some.injEq]
    exact replica?_replicate n name text t.conn
  | metaInfo code name description =>
    simp only [Record.about?, Option.some.injEq]
    exact replica?_announce n code name description t.conn
  | symbolInfo name symbol =>
    simp only [Record.about?, Option.some.injEq]
    exact replica?_announceSymbol n name symbol t.conn
  | status bits => exact hother rfl (replicas_receiveStatus bits t.conn)
  | blocking bits => exact hother rfl rfl
  | message m => exact hother rfl rfl
  | technical text => exact hother rfl (replicas_receiveTechnical text t.conn)
  | reply code reason => exact hother rfl (replicas_receiveReply code reason t.conn)
  | set name op text => exact hother rfl (replicas_receiveSet dev name op text t)
  | command opcode params => exact hother rfl (replicas_receiveCommand dev opcode params t)

/-- **One frame** on an open connection. What cannot be read leaves every replica alone. -/
theorem replica?_processFrame (dev : Device σ) (n : String) {t : Turn τ σ}
    (hopen : t.conn.isClosed = false) (frame : Framing.Frame) :
    (processFrame dev t frame).conn.replica? n =
      (Record.ofFrameAbout? n frame).elim (t.conn.replica? n)
        (Replica.after (t.conn.replica? n)) := by
  have hcount (t : Turn τ σ) :
      (t.onConn countParseError).conn.replica? n = t.conn.replica? n :=
    replica?_of_replicas (replicas_countParseError t.conn) n
  have hrecord (r : Record) : (dispatch dev r t).1.conn.replica? n =
      ((some r).filter fun r => r.about? = some n).elim (t.conn.replica? n)
        (Replica.after (t.conn.replica? n)) := by
    rw [replica?_dispatch dev n r t, Option.filter_some]
    by_cases habout : r.about? = some n
    · simp [habout]
    · simp [habout]
  have hhandled := handled_processFrame dev hopen frame
  unfold Record.ofFrameAbout?
  generalize recordOf? frame = record, processFrame dev t frame = t' at hhandled ⊢
  cases hhandled with
  | blank => rfl
  | malformed => exact hcount t
  | accepted h => exact hrecord _
  | refused h => exact (hcount _).trans (hrecord _)

/-! ## Runs of frames -/

/-- **A run of frames** that leaves the connection open: the replica is the fold of the records
about its name. -/
theorem replica?_frames (dev : Device σ) (n : String) (frames : List Framing.Frame)
    {t : Turn τ σ} (hopen : (frames.foldl (processFrame dev) t).conn.isClosed = false) :
    (frames.foldl (processFrame dev) t).conn.replica? n =
      (recordsAbout n frames).foldl Replica.after (t.conn.replica? n) := by
  induction frames generalizing t with
  | nil => rfl
  | cons frame frames ih =>
    have hstart : t.conn.isClosed = false := by
      by_contra hclosed
      rw [foldl_processFrame_of_closed dev _ (by simpa using hclosed)] at hopen
      exact hclosed hopen
    rw [List.foldl_cons] at hopen ⊢
    rw [ih hopen, replica?_processFrame dev n hstart, recordsAbout, recordsAbout]
    cases h : Record.ofFrameAbout? n frame with
    | none => rw [List.filterMap_cons_none h, Option.elim_none]
    | some r => rw [List.filterMap_cons_some h, Option.elim_some, List.foldl_cons]

/-- What is said of the lines of a closed connection: nothing is left to be done by them. -/
theorem replica?_frames_of_same (dev : Device σ) (n : String) (frames : List Framing.Frame)
    {t : Turn τ σ}
    (hsame : (frames.foldl (processFrame dev) t).conn.isClosed = t.conn.isClosed) :
    (frames.foldl (processFrame dev) t).conn.replica? n =
      if t.conn.isClosed then t.conn.replica? n
      else (recordsAbout n frames).foldl Replica.after (t.conn.replica? n) := by
  cases hclosed : t.conn.isClosed with
  | true => rw [foldl_processFrame_of_closed dev _ hclosed, if_pos rfl]
  | false => rw [replica?_frames dev n frames (hsame.trans hclosed), if_neg Bool.false_ne_true]

/-! ## What is refused -/

/-- A count too many may end the connection, but it takes nothing over. -/
theorem events_countParseError (c : Connection τ) : ∃ es,
    c.countParseError.events = c.events ++ es ∧ ∀ e ∈ es, e.isValueChanged = false := by
  rcases countParseError_cases c with h | h
  · exact ⟨[], by rw [h, List.append_nil], by simp⟩
  · refine ⟨_, by rw [h]; exact List.append_assoc _ _ _, fun e he => ?_⟩
    rcases List.mem_append.1 he with he | he
    · obtain ⟨completion, -, rfl⟩ := List.mem_map.1 he
      rfl
    · rw [List.mem_singleton.1 he]
      rfl

/-- **A text that is refused** by the replica that it is for. -/
theorem processFrame_refused (dev : Device σ) {t : Turn τ σ} {frame : Framing.Frame}
    {name text : String} (hframe : recordOf? frame = some (.value name text)) {r : Replica}
    (hr : t.conn.replica? name = some r) {e : ParseError} (hrefused : r.receive text = .error e) :
    (processFrame dev t frame).conn.replica? name = some r ∧
    ∃ es, (processFrame dev t frame).conn.events = t.conn.events ++ es ∧
      ∀ e ∈ es, e.isValueChanged = false := by
  cases hclosed : t.conn.isClosed with
  | true =>
    have hsame : processFrame dev t frame = t := foldl_processFrame_of_closed dev [frame] hclosed
    rw [hsame]
    exact ⟨hr, [], (List.append_nil _).symm, by simp⟩
  | false =>
    have hdispatch : dispatch dev (.value name text) t = (t, some e) := by
      show (Turn.mk (t.conn.replicate name text).1 t.own, _) = _
      unfold replicate
      rw [hr]
      dsimp only
      rw [hrefused]
    have hhandled := handled_processFrame dev hclosed frame
    rw [hframe] at hhandled
    generalize processFrame dev t frame = t' at hhandled ⊢
    cases hhandled with
    | accepted h =>
      rw [hdispatch] at h
      cases h
    | refused h =>
      rw [hdispatch]
      refine ⟨?_, events_countParseError t.conn⟩
      exact (replica?_of_replicas (replicas_countParseError t.conn) name).trans hr

/-- **An announcement without a meaning** leaves the replicas alone. -/
theorem replica?_of_undecodable (dev : Device σ) {t : Turn τ σ} {frame : Framing.Frame}
    {code : UInt32} {name description : String}
    (hframe : recordOf? frame = some (.metaInfo code name description)) {e : ParseError}
    (hcode : Kind.ofCode code = .error e) :
    (processFrame dev t frame).conn.replica? name = t.conn.replica? name := by
  cases hclosed : t.conn.isClosed with
  | true =>
    have hsame : processFrame dev t frame = t := foldl_processFrame_of_closed dev [frame] hclosed
    rw [hsame]
  | false =>
    have hannounce : Replica.announce code name description = .error e := by
      unfold Replica.announce
      rw [hcode]
      rfl
    have habout : Record.ofFrameAbout? name frame = some (.metaInfo code name description) := by
      rw [Record.ofFrameAbout?, hframe]
      exact Option.filter_some_pos (decide_eq_true rfl)
    rw [replica?_processFrame dev name hclosed, habout, Option.elim_some]
    unfold Replica.after
    dsimp only
    rw [hannounce]

/-! ## Two runs -/

/-- **Replicas are independent** of everything that is not about them. Two runs of lines on one
connection, with any owners, that do not close it and agree on the announcements, symbols and pushes
under a name agree on its replica. A push whose text the replica refuses leaves the replica what it
was, step by step, and reports no change; an announcement whose type word means nothing leaves the
replica in place. -/
theorem replicas_independent {υ : Type} (dev : Device σ) (dev' : Device υ) (c : Connection τ)
    (name : String) :
    (∀ own own' frames frames',
      (frames.foldl (processFrame dev) ⟨c, own⟩).conn.isClosed = c.isClosed →
      (frames'.foldl (processFrame dev') ⟨c, own'⟩).conn.isClosed = c.isClosed →
      recordsAbout name frames = recordsAbout name frames' →
      (frames.foldl (processFrame dev) ⟨c, own⟩).conn.replica? name =
        (frames'.foldl (processFrame dev') ⟨c, own'⟩).conn.replica? name) ∧
    (∀ own frame text r e, recordOf? frame = some (.value name text) →
      c.replica? name = some r → (Replica.receiveInPlace text r).1 = .error e →
      (Replica.receiveInPlace text r).2 = r ∧
      (processFrame dev ⟨c, own⟩ frame).conn.replica? name = some r ∧
      ∃ es, (processFrame dev ⟨c, own⟩ frame).conn.events = c.events ++ es ∧
        ∀ e ∈ es, e.isValueChanged = false) ∧
    (∀ own frame code description e,
      recordOf? frame = some (.metaInfo code name description) → Kind.ofCode code = .error e →
      (processFrame dev ⟨c, own⟩ frame).conn.replica? name = c.replica? name) := by
  refine ⟨fun own own' frames frames' hsame hsame' habout => ?_,
    fun own frame text r e hframe hr hrefused => ?_,
    fun own frame code description e hframe hcode => replica?_of_undecodable dev hframe hcode⟩
  · rw [replica?_frames_of_same dev name frames hsame,
      replica?_frames_of_same dev' name frames' hsame', habout]
  · have hsettles := Replica.settles_receiveInPlace text r
    cases hreceive : r.receive text with
    | ok s =>
      rw [hreceive] at hsettles
      rw [show Replica.receiveInPlace text r = _ from hsettles] at hrefused
      cases hrefused
    | error e' =>
      rw [hreceive] at hsettles
      rw [show Replica.receiveInPlace text r = _ from hsettles]
      exact ⟨rfl, processFrame_refused dev hframe hr hreceive⟩

/-- A lamp that is announced and pushed, once alone and once among a malformed line, records about
another name, a request and a status word. -/
theorem replicas_independent_of_traffic :
    let c : Connection Unit := Connection.inMemory 1 .client "peer" 0
    let lines : List Framing.Frame :=
      [.ok "METAINFO 2 lamp \"calibration lamp\"", .ok "V lamp 3"]
    let traffic : List Framing.Frame :=
      [.ok "V other 7", .ok "METAINFO 2 lamp \"calibration lamp\"", .ok "V",
        .ok "X other = 1", .ok "V lamp 3", .ok "S 5"]
    let run (frames : List Framing.Frame) : Turn Unit Unit :=
      frames.foldl (processFrame Device.passive) ⟨c, {}, ()⟩
    (run lines).conn.replica? "lamp" = (run traffic).conn.replica? "lamp" ∧
      ((run lines).conn.replica? "lamp").isSome = true := by
  intro c lines traffic run
  refine ⟨(replicas_independent Device.passive Device.passive c "lamp").1 ⟨{}, ()⟩ ⟨{}, ()⟩ lines
    traffic ?_ ?_ ?_, ?_⟩
  · decide +kernel
  · decide +kernel
  · rfl
  · decide +kernel

end Connection

end Observatory
