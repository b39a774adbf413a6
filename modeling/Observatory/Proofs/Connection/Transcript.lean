import Observatory.Proofs.Connection.Written
/-!
# What is read of a connection

Whatever a connection does, its output is the lines of its acts, one for each record, and a reader
whose limit they keep finds exactly these lines again, however the bytes are cut: no text that a
record carries can end its line early, add a line to it, or lose its last character.

* `Performs.output_eq` — the output of a run is its transcript.
* `framesOfChunks_transcript` — the transcript is what is read.
-/

namespace Observatory

open Framing (stream framesOfChunks)
open Text (OneLine isBlank)

/-! ## Lines of acts -/

namespace Act

/-- The lines that an act writes to a peer that knows the given names, one for each record. -/
def lines (announced : List String) : Act → List (List Char)
  | push v => (v.pushRecords announced).map Record.encode
  | tell r => [r.encode]
  | answer code reason => [(Record.reply code reason).encode]
  | start q => [q.command.encode]
  | _ => []

/-- The names that the peer knows after an act. -/
def announces (announced : List String) : Act → List String
  | push v => v.pushNames announced
  | _ => announced

end Act

namespace Connection

variable {τ : Type}

/-- The lines of a run, in order. -/
def transcript (announced : List String) : List Act → List (List Char)
  | [] => []
  | a :: acts => a.lines announced ++ transcript (a.announces announced) acts

/-! ## Output -/

theorem Does.announced_eq {a : Act} {c d : Connection τ} (h : Does c a d) :
    d.announced = a.announces c.announced := by
  cases h with
  | push v => rw [sendValue_eq, Act.announces]
  | connect _ h =>
    subst h
    rfl
  | adjust h => exact h.announced
  | _ => rfl

/-- **One act** adds its lines to the output, unless it gives some of the output away. -/
theorem Does.output_eq {a : Act} {c d : Connection τ} (h : Does c a d)
    (hkeep : ∀ count, a ≠ .flush count) :
    d.output = c.output ++ stream ((a.lines c.announced).map lineBytes) := by
  cases h with
  | push v => rw [sendValue_eq, Act.lines, recordBytes, List.map_map]; rfl
  | tell _ => rw [send_eq]; rfl
  | answer code reason => rw [sendReply, send_eq]; rfl
  | start _ _ _ => rw [sendLine_eq]; rfl
  | flush count => exact absurd rfl (hkeep count)
  | connect _ h =>
    subst h
    exact (List.append_nil _).symm
  | adjust h =>
    rw [h.output]
    exact (List.append_nil _).symm
  | _ => exact (List.append_nil _).symm

/-- **A run** adds its transcript to the output. -/
theorem Performs.output_eq {c d : Connection τ} {acts : List Act} (h : Performs c acts d)
    (hkeep : ∀ count, Act.flush count ∉ acts) :
    d.output = c.output ++ stream ((transcript c.announced acts).map lineBytes) := by
  induction h with
  | nil => simp [transcript]
  | @cons c d e a acts hd ht ih =>
    have hfirst : d.output = c.output ++ stream ((a.lines c.announced).map lineBytes) := by
      refine hd.output_eq ?_
      intro count heq
      exact hkeep count (by simp [heq])
    have hlater := ih fun count hmem => hkeep count (List.mem_cons_of_mem _ hmem)
    rw [hlater, hfirst, hd.announced_eq, transcript, List.map_append, Framing.stream_append,
      List.append_assoc]

/-! ## One line a record -/

theorem Does.oneLine {a : Act} {c d : Connection τ} (h : Does c a d)
    (hopcode : ∀ q, a = .start q → ∀ ch ∈ q.command.opcode.toList, isBlank ch = false)
    (announced : List String) : ∀ line ∈ a.lines announced, OneLine line := by
  intro line hline
  cases h with
  | push v =>
    obtain ⟨r, hr, rfl⟩ := List.mem_map.1 hline
    exact (Value.isPlain_of_mem_pushRecords hr).1.oneLine
  | tell hr =>
    rw [List.mem_singleton.1 hline]
    exact hr.isPlain.oneLine
  | answer code reason =>
    rw [List.mem_singleton.1 hline]
    exact Record.oneLine_reply code reason
  | @start q _ _ _ _ =>
    rw [List.mem_singleton.1 hline]
    exact Record.oneLine_commandEncode (hopcode q rfl)
  | _ => cases hline

theorem Performs.oneLine {c d : Connection τ} {acts : List Act} (h : Performs c acts d)
    (hopcodes : ∀ q, .start q ∈ acts → ∀ ch ∈ q.command.opcode.toList, isBlank ch = false)
    (announced : List String) : ∀ line ∈ transcript announced acts, OneLine line := by
  induction h generalizing announced with
  | nil => simp [transcript]
  | @cons c d e a acts hd ht ih =>
    intro line hline
    rcases List.mem_append.1 hline with hfirst | hlater
    · refine hd.oneLine ?_ announced line hfirst
      rintro q rfl
      exact hopcodes q List.mem_cons_self
    · exact ih (fun q hq => hopcodes q (List.mem_cons_of_mem _ hq)) _ line hlater

/-- **What is written is what is read.** The output of a run, cut into chunks anywhere, is read as
the lines of its records and commands, in order and without an error, by a reader whose limit no
line exceeds. The opcodes of the commands are without blanks; nothing else is asked of the texts. -/
theorem framesOfChunks_transcript {c d : Connection τ} {acts : List Act} (h : Performs c acts d)
    (hempty : c.output = []) (hkeep : ∀ count, Act.flush count ∉ acts)
    (hopcodes : ∀ q, Act.start q ∈ acts → ∀ ch ∈ q.command.opcode.toList, isBlank ch = false)
    {limit : Nat}
    (hfit : ∀ line ∈ transcript c.announced acts, (lineBytes line).length ≤ limit)
    {chunks : List Bytes} (hchunks : chunks.flatten = d.output) :
    framesOfChunks { limit } chunks =
      (transcript c.announced acts).map fun line => .ok (String.ofList line) := by
  have houtput := h.output_eq hkeep
  rw [hempty, List.nil_append] at houtput
  exact Framing.framesOfChunks_texts (f := { limit }) rfl rfl (h.oneLine hopcodes c.announced)
    hfit (hchunks.trans houtput)

/-- A run with line breaks in everything that a peer is told. -/
def lineBreaks : List Act :=
  let command : Queued := ⟨⟨1, 1⟩, { opcode := "move", params := ["\n", "x\r"] }⟩
  [.push { name := "NOTE\n", description := "\r", contents := .scalar (.string "a\r\nb\n") },
    .tell (.message ⟨0, 0, "DOME\n", .info, "open\r\n"⟩), .answer (-1) "no\nway",
    .accept false command, .start command, .tell (.technical "ready")]

theorem framesOfChunks_transcript_of_lineBreaks :
    ∃ d : Connection Unit, Performs (inMemory 1 .client "client" 0) lineBreaks d ∧
      framesOfChunks { limit := 40 } [d.output.take 30, d.output.drop 30] =
        (transcript [] lineBreaks).map fun line => .ok (String.ofList line) := by
  have hmove : Record.IsOpcode "move" := by decide
  have hready : OneLine "ready".toList := by decide
  have hrun : ∃ d : Connection Unit, Performs (inMemory 1 .client "client" 0) lineBreaks d := by
    refine ⟨_, .cons (.push _) (.cons (.tell trivial) (.cons (.answer _ _) (.cons (.accept rfl rfl)
      (.cons (.start rfl rfl rfl) (.cons (.tell hready) .nil)))))⟩
  obtain ⟨d, hd⟩ := hrun
  refine ⟨d, hd, framesOfChunks_transcript hd rfl (by simp [lineBreaks]) ?_ ?_ (by simp)⟩
  · intro q hq
    simp only [lineBreaks, List.mem_cons, reduceCtorEq, false_or, or_false, Act.start.injEq,
      List.not_mem_nil] at hq
    rw [hq]
    exact hmove.bare.ink
  · show ∀ line ∈ transcript [] lineBreaks, (lineBytes line).length ≤ 40
    decide +kernel

end Connection

end Observatory
