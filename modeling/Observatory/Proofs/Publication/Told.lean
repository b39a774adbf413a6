import Observatory.Endpoint.Basic
import Observatory.Proofs.Command.Queue
import Observatory.Proofs.Connection.Owner
import Observatory.Proofs.Connection.Written
/-!
# What a peer was told

Everything that was ever written to a peer is in the output of its connection, as long as nobody
takes it. Among the lines there, those about one value are its announcement and its pushes. Most
of what a connection does writes no such line.

* `Connection.told` — the lines about one value.
* `Connection.Hush` — acts that tell the peer nothing of values.
-/

namespace Observatory

open Framing (stream)

/-! ## Lines about values -/

/-- The name of the value that a line announces or pushes. -/
def lineAbout? (line : Bytes) : Option String := (readLine line).bind Record.about?

/-- The lines of records. -/
def recordLines (records : List Record) : List Bytes := records.map fun r => lineBytes r.encode

theorem stream_recordLines (records : List Record) :
    stream (recordLines records) = recordBytes records := rfl

theorem lineAbout?_plain {r : Record} (h : r.IsPlain) :
    lineAbout? (lineBytes r.encode) = r.about? := by
  obtain ⟨s, hs, -, -, habout⟩ := h.read
  unfold lineAbout?
  rw [readLine_lineBytes h.oneLine, hs]
  exact habout

theorem lineFeed_not_mem_recordLines {records : List Record} (h : ∀ r ∈ records, r.IsPlain) :
    ∀ l ∈ recordLines records, lineFeed ∉ l := by
  intro l hl
  obtain ⟨r, hr, rfl⟩ := List.mem_map.1 hl
  exact (h r hr).oneLine.lineFeed_not_mem_encode

/-- The lines about a value, among those of plain records. -/
theorem filter_recordLines {records : List Record} (h : ∀ r ∈ records, r.IsPlain) (name : String) :
    (recordLines records).filter (fun l => lineAbout? l == some name) =
      recordLines (records.filter fun r => r.about? == some name) := by
  unfold recordLines
  rw [List.filter_map]
  congr 1
  exact List.filter_congr fun r hr => by rw [Function.comp_apply, lineAbout?_plain (h r hr)]

/-! ## Ordinary commands -/

/-- A command that no peer takes for a reply or for news of a value. -/
structure Command.IsOrdinary (c : Command) : Prop where
  opcode : Record.IsOpcode c.opcode
  noNews : c.opcode ∉ ["V", "METAINFO", "SELMETAINFO"]

namespace Record

/-- News of a value starts with one of three words. -/
theorem word?_of_about? {r : Record} {name : String} (h : r.about? = some name) :
    ∃ word ∈ ["V", "METAINFO", "SELMETAINFO"], r.word? = some word := by
  cases r with
  | value _ _ => exact ⟨"V", by simp, rfl⟩
  | metaInfo _ _ _ => exact ⟨"METAINFO", by simp, rfl⟩
  | symbolInfo _ _ => exact ⟨"SELMETAINFO", by simp, rfl⟩
  | _ => cases h

/-- Only the opcodes of news are read as news of a value. -/
theorem about?_of_parseBody {opcode rest : List Char} {r : Record}
    (hopcode : String.ofList opcode ∉ ["V", "METAINFO", "SELMETAINFO"])
    (h : parseBody opcode rest = .ok r) : r.about? = none := by
  cases habout : r.about? with
  | none => rfl
  | some name =>
    obtain ⟨word, hword, hr⟩ := word?_of_about? habout
    rw [word?_of_parseBody h] at hr
    split at hr
    · cases hr
    · rw [Option.some.inj hr] at hopcode
      exact absurd hword hopcode

end Record

theorem lineAbout?_command {c : Command} (h : c.IsOrdinary) :
    lineAbout? (lineBytes c.encode) = none := by
  unfold lineAbout?
  rw [readLine_lineBytes (Record.oneLine_commandEncode h.opcode.bare.ink),
    Record.parseChars_commandEncode h.opcode]
  cases hparse : Record.parseBody c.opcode.toList
    (c.params.flatMap fun p => ' ' :: Text.Quoted.encodeArgument p.toList) with
  | error e => rfl
  | ok r => exact Record.about?_of_parseBody (by rw [String.ofList_toList]; exact h.noNews) hparse

namespace Connection

variable {τ σ : Type}

/-! ## Everything that was written -/

/-- The lines about a value, among all that were ever written. -/
def told (name : String) (c : Connection τ) : List Bytes :=
  (Framing.cut c.output).1.filter fun line => lineAbout? line == some name

/-- Only whole lines were written. -/
def IsWhole (c : Connection τ) : Prop := (Framing.cut c.output).2 = []

/-- More lines are written. -/
theorem told_of_output {c d : Connection τ} {lines : List Bytes} (hc : c.IsWhole)
    (houtput : d.output = c.output ++ stream lines) (hlines : ∀ l ∈ lines, lineFeed ∉ l) :
    d.IsWhole ∧ ∀ name, d.told name =
      c.told name ++ lines.filter fun line => lineAbout? line == some name := by
  have hsplit : stream (Framing.cut c.output).1 = c.output := by
    have h := Framing.stream_cut c.output
    rwa [show (Framing.cut c.output).2 = [] from hc, List.append_nil] at h
  have hall : ∀ l ∈ (Framing.cut c.output).1 ++ lines, lineFeed ∉ l := by
    intro l hl
    rcases List.mem_append.1 hl with hl | hl
    · exact Framing.lineFeed_not_mem_cut_fst hl
    · exact hlines l hl
  have hcut := Framing.cut_stream_append hall (show lineFeed ∉ ([] : Bytes) by simp)
  rw [Framing.stream_append, hsplit, List.append_nil, ← houtput] at hcut
  refine ⟨?_, fun name => ?_⟩
  · unfold IsWhole
    rw [hcut]
  · unfold told
    rw [hcut, List.filter_append]

/-! ## Acts that tell nothing of values -/

/-- Only ordinary commands are to be sent. -/
def IsModest (c : Connection τ) : Prop := ∀ q ∈ c.queue.pending, q.command.IsOrdinary

/-- Nothing is written about values, nobody becomes a subscriber, and the commands that are still
to be sent are ordinary. -/
structure Hush (c d : Connection τ) : Prop where
  lines : ∃ lines, d.output = c.output ++ stream lines ∧
    ∀ l ∈ lines, lineFeed ∉ l ∧ lineAbout? l = none
  announced : d.announced = c.announced
  subscriber : Endpoint.isSubscriber d = true → Endpoint.isSubscriber c = true
  helper : c.helper = none → d.helper = none
  modest : d.IsModest

theorem Hush.of_same {c d : Connection τ} (houtput : d.output = c.output)
    (hannounced : d.announced = c.announced) (hkind : d.kind = c.kind) (hstate : d.state = c.state)
    (hhelper : c.helper = none → d.helper = none) (hd : d.IsModest) : Hush c d := by
  refine ⟨⟨[], by simp [houtput], by simp⟩, hannounced, fun h => ?_, hhelper, hd⟩
  unfold Endpoint.isSubscriber isEstablished at h ⊢
  rw [hkind, hstate] at h
  exact h

theorem Hush.refl {c : Connection τ} (hc : c.IsModest) : Hush c c :=
  .of_same rfl rfl rfl rfl (fun h => h) hc

theorem Hush.trans {c d e : Connection τ} (h : Hush c d) (h' : Hush d e) : Hush c e := by
  obtain ⟨ls, hls, hquiet⟩ := h.lines
  obtain ⟨ms, hms, hquiet'⟩ := h'.lines
  refine ⟨⟨ls ++ ms, ?_, fun l hl => ?_⟩, h'.announced.trans h.announced,
    fun hsub => h.subscriber (h'.subscriber hsub), fun hnone => h'.helper (h.helper hnone),
    h'.modest⟩
  · rw [hms, hls, Framing.stream_append, List.append_assoc]
  · rcases List.mem_append.1 hl with hl | hl
    · exact hquiet l hl
    · exact hquiet' l hl

theorem Hush.told {c d : Connection τ} (h : Hush c d) (hc : c.IsWhole) :
    d.IsWhole ∧ ∀ name, d.told name = c.told name := by
  obtain ⟨lines, houtput, hlines⟩ := h.lines
  obtain ⟨hd, htold⟩ := told_of_output hc houtput fun l hl => (hlines l hl).1
  refine ⟨hd, fun name => ?_⟩
  have hnone : lines.filter (fun line => lineAbout? line == some name) = [] :=
    List.filter_eq_nil_iff.2 fun l hl => by rw [(hlines l hl).2]; simp
  rw [htold, hnone, List.append_nil]

/-- A line that is about no value. -/
theorem hush_sendLine {line : List Char} (hline : Text.OneLine line)
    (habout : lineAbout? (lineBytes line) = none) {c : Connection τ} (hc : c.IsModest) :
    Hush c (c.sendLine line) := by
  rw [sendLine_eq]
  refine ⟨⟨[lineBytes line], rfl, fun l hl => ?_⟩, rfl, fun h => h, fun h => h, hc⟩
  rw [List.mem_singleton.1 hl]
  exact ⟨hline.lineFeed_not_mem_encode, habout⟩

theorem hush_send {r : Record} (hr : r.IsPlain) (habout : r.about? = none) {c : Connection τ}
    (hc : c.IsModest) : Hush c (c.send r) :=
  hush_sendLine hr.oneLine ((lineAbout?_plain hr).trans habout) hc

/-- The end of a connection: nothing is to be sent any more. -/
theorem hush_finishClose (reason : CloseReason) (c : Connection τ) :
    Hush c (c.finishClose reason) := by
  obtain ⟨-, stats, hqueue⟩ := CommandQueue.failAll_eq connectionLost (-4) c.queue
  refine ⟨⟨[], by simp [finishClose], by simp⟩, rfl, fun h => ?_, fun h => h, fun q hq => ?_⟩
  · simp [Endpoint.isSubscriber, isEstablished, finishClose] at h
  · simp [finishClose, hqueue, CommandQueue.pending] at hq

end Connection

/-- Acts that push no value, take no command in, and leave the link and the output alone. -/
def Act.isHushed : Act → Bool
  | .push _ => false
  | .accept _ _ => false
  | .connect => false
  | .flush _ => false
  | _ => true

theorem Act.isHushed_of_isSilent {a : Act} (h : a.isSilent = true) : a.isHushed = true := by
  cases a <;> first | rfl | simp [isSilent] at h

namespace Connection

variable {τ σ : Type}

/-- **One act.** -/
theorem Does.hush {c d : Connection τ} {a : Act} (h : Does c a d) (ha : a.isHushed = true)
    (hc : c.IsModest) : Hush c d := by
  cases h with
  | @tell r hr => exact hush_send hr.isPlain hr.about? hc
  | answer code reason => exact hush_send (r := .reply code reason) trivial rfl hc
  | note _ _ => exact .of_same rfl rfl rfl rfl (fun h => h) hc
  | refuse _ => exact .of_same rfl rfl rfl rfl (fun h => h) hc
  | arrive _ _ => exact .of_same rfl rfl rfl rfl (fun h => h) hc
  | adjust h =>
    refine .of_same h.output h.announced h.kind h.state h.helper ?_
    unfold IsModest
    rw [h.queue]
    exact hc
  | @start q rest _ hnone hwaiting =>
    have hpending := CommandQueue.pending_of_startNext hnone hwaiting
    have hmodest : IsModest { c with queue.inFlight := some q, queue.waiting := rest } := by
      unfold IsModest
      rw [hpending]
      exact hc
    have hq : q.command.IsOrdinary := hmodest q (by simp [CommandQueue.pending])
    have hstart : Hush c { c with queue.inFlight := some q, queue.waiting := rest } :=
      .of_same rfl rfl rfl rfl (fun h => h) hmodest
    have hline := Record.oneLine_commandEncode hq.opcode.bare.ink
    exact hstart.trans (hush_sendLine hline (lineAbout?_command hq) hmodest)
  | @complete q hq _ outcome code =>
    refine .of_same rfl rfl rfl rfl (fun h => h) fun p hp => hc p ?_
    simp only [emit, CommandQueue.complete_eq hq, CommandQueue.pending, Option.toList_none,
      List.nil_append] at hp
    exact List.mem_append_right _ hp
  | requeue hq _ hroom =>
    refine .of_same rfl rfl rfl rfl (fun h => h) ?_
    unfold IsModest
    rw [CommandQueue.pending_of_requeue hq hroom]
    exact hc
  | drain _ _ =>
    refine ⟨⟨[], by simp, by simp⟩, rfl, fun h => ?_, fun h => h, hc⟩
    simp [Endpoint.isSubscriber, isEstablished] at h
  | close _ reason => exact hush_finishClose reason c
  | _ => cases ha

theorem Performs.hush {c d : Connection τ} {acts : List Act} (h : Performs c acts d)
    (hacts : ∀ a ∈ acts, a.isHushed = true) (hc : c.IsModest) : Hush c d := by
  induction h with
  | nil => exact .refl hc
  | cons hd _ ih =>
    have hfirst := hd.hush (hacts _ List.mem_cons_self) hc
    exact hfirst.trans (ih (fun a ha => hacts a (List.mem_cons_of_mem _ ha)) hfirst.modest)

theorem Murmurs.hush {c d : Connection τ} (h : Murmurs c d) (hc : c.IsModest) : Hush c d := by
  obtain ⟨acts, h, hsilent⟩ := h
  exact h.hush (fun a ha => Act.isHushed_of_isSilent (hsilent a ha)) hc

/-! ## Operations that tell nothing of values -/

theorem hush_pump {c : Connection τ} (hc : c.IsModest) : Hush c c.pump := by
  rcases performs_pump c with h | ⟨-, -, q, h⟩
  · rw [h]
    exact .refl hc
  · exact h.hush rfl hc

/-- An ordinary command is taken in, sent at once or turned away. -/
theorem hush_queueCommand {command : Command} (hcommand : command.IsOrdinary) (urgent : Bool)
    {c : Connection τ} (hc : c.IsModest) : Hush c (c.queueCommand urgent command).2 := by
  rcases performs_queueCommand urgent command c with
    ⟨e, h⟩ | ⟨e, d, hd, h⟩ | ⟨handle, d, hd, h⟩
  · rw [h]
    exact .refl hc
  · rw [h]
    exact hd.hush rfl hc
  · rw [h]
    cases hd with
    | @accept _ _ _ queue _ hinsert =>
      have hmodest : IsModest { c with queue } := by
        intro q hq
        rcases List.mem_cons.1 ((CommandQueue.insert_pending hinsert).mem_iff.1 hq) with hq | hq
        · rw [hq]
          exact hcommand
        · exact hc q hq
      have haccept : Hush c { c with queue } := .of_same rfl rfl rfl rfl (fun h => h) hmodest
      exact haccept.trans (hush_pump hmodest)

theorem hush_close (reason : CloseReason) {c : Connection τ} (hc : c.IsModest) :
    Hush c (c.close reason) := by
  rcases performs_close reason c with h | h | h
  · rw [h]
    exact .refl hc
  · exact h.hush rfl hc
  · exact h.hush rfl hc

theorem hush_idle (now : Instant) {c : Connection τ} (hhelper : c.helper = none)
    (hc : c.IsModest) : Hush c (c.idle now) := by
  obtain ⟨d, hd, hidle⟩ := idle_cases now hhelper
  have hfirst : Hush c d := by
    rcases hd with rfl | ⟨-, q, hd⟩
    · exact .refl hc
    · exact hd.hush rfl hc
  refine hfirst.trans ?_
  rcases hidle with h | ⟨-, h⟩
  · exact h.hush hfirst.modest
  · rw [h]
    exact hush_finishClose _ d

theorem ReplyActs.isHushed {flight : Option Queued} {acts : List Act} (h : ReplyActs flight acts) :
    ∀ a ∈ acts, a.isHushed = true := by
  cases h <;> simp [Act.isHushed]

theorem hush_receiveReply (code : Int32) (reason : String) {c : Connection τ}
    (hopen : c.isClosed = false) (hc : c.IsModest) : Hush c (c.receiveReply code reason) := by
  obtain ⟨acts, hacts, h⟩ := performs_receiveReply code reason hopen
  exact h.hush hacts.isHushed hc

theorem hush_sendReply (code : Int32) (reason : String) {c : Connection τ} (hc : c.IsModest) :
    Hush c (c.sendReply code reason) :=
  (Does.answer code reason).hush rfl hc

theorem hush_countParseError {c : Connection τ} (hc : c.IsModest) :
    Hush c c.countParseError := by
  have hcount : Hush c { c with parseErrors := c.parseErrors + 1 } :=
    .of_same rfl rfl rfl rfl (fun h => h) hc
  rcases countParseError_cases c with h | h
  · rw [h]
    exact hcount
  · rw [h]
    exact hcount.trans (hush_finishClose _ _)

end Connection

end Observatory
