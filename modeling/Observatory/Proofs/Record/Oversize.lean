import Observatory.Proofs.Record.Cutting
import Observatory.Record.Lines
/-!
# Lines that are too long

A reader keeps no more bytes than its limit allows, however long a line grows, and gives up nothing
but that line: it is reported once, and the lines around it are read as if it were not there.

* `drain_eq_push`, `drawn_eq` — lines drawn one at a time are those of a chunk taken at once.
* `length_held_le` — what is kept after a chunk.
* `Settled`, `exists_answers` — what becomes of a line, and the frames of any chunks.
* `oversized_skipped` — any chunks: what is kept after them, and one frame for each line.
-/

namespace Observatory

/-- Bytes that are read as a text are the bytes of the text. -/
theorem Text.Utf8.encode_of_decode? {bytes : Bytes} {s : String} (h : decode? bytes = some s) :
    encode s = bytes := by
  unfold decode? String.fromUTF8? at h
  split at h
  · cases h
    rfl
  · cases h

namespace Framing

variable {limit : Nat}

/-! ## Lines drawn one at a time -/

theorem breakLine_of_not_mem {bytes : Bytes} (h : lineFeed ∉ bytes) : breakLine bytes = none := by
  induction bytes with
  | nil => rfl
  | cons b bs ih =>
    simp only [List.mem_cons, not_or] at h
    rw [breakLine, if_neg (Ne.symm h.1), ih h.2]
    rfl

theorem breakLine_line_append {line : Bytes} (h : lineFeed ∉ line) (rest : Bytes) :
    breakLine (line ++ lineFeed :: rest) = some (line, rest) := by
  induction line with
  | nil => rfl
  | cons b line ih =>
    simp only [List.mem_cons, not_or] at h
    rw [List.cons_append, breakLine, if_neg (Ne.symm h.1), ih h.2]
    rfl

theorem drain_of_none {f left : Framing} (h : f.nextLine = (none, left)) :
    f.drain = ([], left) := by
  rw [drain]
  split
  · next left' h' =>
    cases h.symm.trans h'
    rfl
  · next h' => cases h.symm.trans h'

theorem drain_of_some {f left : Framing} {frame : Frame} (h : f.nextLine = (some frame, left)) :
    f.drain = (frame :: left.drain.1, left.drain.2) := by
  rw [drain]
  split
  · next h' => cases h.symm.trans h'
  · next frame' left' h' =>
    cases h.symm.trans h'
    rfl

theorem drain_congr {f g : Framing} (h : f.nextLine = g.nextLine) : f.drain = g.drain := by
  cases hnext : g.nextLine with
  | mk frame left =>
    cases frame with
    | none => rw [drain_of_none (h.trans hnext), drain_of_none hnext]
    | some frame => rw [drain_of_some (h.trans hnext), drain_of_some hnext]

/-- A reader that keeps no complete line gives at most the report that it has kept too much. -/
theorem drain_of_unfinished {f : Framing} (h : lineFeed ∉ f.held) : f.drain = f.push [] := by
  have hbreak := breakLine_of_not_mem h
  have hpush : f.push [] = if f.held.length ≤ f.limit then ([], f)
      else if f.discarding then ([], { f with held := [] })
      else ([.error (.tooLong f.limit)], { f with held := [], discarding := true }) := by
    obtain ⟨limit, held, discarding⟩ := f
    simp only [push, List.append_nil, cut_of_not_mem h, framesOf_nil, List.isEmpty_nil,
      Bool.and_true, List.nil_append]
  rw [hpush]
  by_cases hlong : f.limit < f.held.length
  · rw [if_neg (Nat.not_le.2 hlong)]
    cases hskip : f.discarding with
    | true =>
      rw [if_pos rfl]
      refine drain_of_none ?_
      rw [nextLine, hbreak]
      simp only [if_pos hlong, hskip, if_true]
    | false =>
      have hreport : f.nextLine = (some (.error (.tooLong f.limit)),
          { f with held := [], discarding := true }) := by
        rw [nextLine, hbreak]
        simp only [if_pos hlong, hskip, Bool.false_eq_true, if_false]
      have hempty : nextLine { f with held := [], discarding := true } =
          (none, { f with held := [], discarding := true }) := by
        rw [nextLine]
        simp only [breakLine, List.length_nil, Nat.not_lt_zero, if_false]
      rw [if_neg Bool.false_ne_true, drain_of_some hreport, drain_of_none hempty]
  · rw [if_pos (Nat.not_lt.1 hlong)]
    refine drain_of_none ?_
    rw [nextLine, hbreak]
    simp only [if_neg hlong]

theorem drain_of_lines {lines : List Bytes} {rest : Bytes} (hlines : ∀ l ∈ lines, lineFeed ∉ l)
    (hrest : lineFeed ∉ rest) {f : Framing} (hheld : f.held = stream lines ++ rest) :
    f.drain = f.push [] := by
  induction lines generalizing f with
  | nil =>
    rw [stream_nil, List.nil_append] at hheld
    exact drain_of_unfinished (by rwa [hheld])
  | cons line lines ih =>
    have hlater : ∀ l ∈ lines, lineFeed ∉ l := fun l hl => hlines l (List.mem_cons_of_mem line hl)
    have hbreak : breakLine f.held = some (line, stream lines ++ rest) := by
      rw [hheld, stream_cons, List.append_assoc, List.cons_append]
      exact breakLine_line_append (hlines line List.mem_cons_self) _
    have hcut : cut (f.held ++ []) = (line :: lines, rest) := by
      rw [List.append_nil, hheld, cut_stream_append hlines hrest]
    have hcutLater : cut (stream lines ++ rest ++ []) = (lines, rest) := by
      rw [List.append_nil, cut_stream_append hlater hrest]
    cases hskip : f.discarding with
    | true =>
      -- the end of the line is passed over
      have hnext : f.nextLine =
          nextLine { f with held := stream lines ++ rest, discarding := false } := by
        rw [nextLine, hbreak]
        simp only [hskip, if_true]
      rw [drain_congr hnext, ih hlater rfl]
      unfold push
      rw [hcut, hcutLater]
      simp only [hskip, framesOf_true_cons, framesOf_false, List.isEmpty_cons, Bool.and_false,
        Bool.false_and]
    | false =>
      have hnext : f.nextLine =
          (some (frameOf f.limit line), { f with held := stream lines ++ rest }) := by
        rw [nextLine, hbreak]
        simp only [hskip, Bool.false_eq_true, if_false]
      rw [drain_of_some hnext, ih hlater rfl]
      unfold push
      rw [hcut, hcutLater]
      simp only [hskip, framesOf_false, Bool.false_and, Bool.false_eq_true, if_false, List.map_cons]
      split <;> rfl

/-- **A chunk taken at once** gives the lines that are drawn one at a time. -/
theorem drain_eq_push (f : Framing) (chunk : Bytes) :
    drain { f with held := f.held ++ chunk } = f.push chunk := by
  obtain ⟨heq, hlines, hrest⟩ := cut_spec (f.held ++ chunk)
  rw [drain_of_lines hlines hrest heq.symm]
  unfold push
  dsimp only
  rw [List.append_nil]

/-- Takes chunks, one after the other, each at once. -/
def pushAll (f : Framing) (chunks : List Bytes) : Framing :=
  chunks.foldl (fun f chunk => (f.push chunk).2) f

theorem drawn_eq (f : Framing) (chunks : List Bytes) :
    f.drawn chunks = (framesOfChunks f chunks, f.pushAll chunks) := by
  induction chunks generalizing f with
  | nil => rfl
  | cons chunk chunks ih =>
    rw [drawn, drain_eq_push, framesOfChunks, pushAll, List.foldl_cons, ← pushAll]
    dsimp only
    rw [ih]

/-! ## What is kept -/

theorem length_held_le (f : Framing) (chunk : Bytes) :
    (f.push chunk).2.held.length ≤ f.limit := by
  unfold push
  dsimp only
  split
  · next hle => exact hle
  · split <;> exact Nat.zero_le _

/-- What is kept after any chunks is within the limit, and it is the beginning of one line. -/
theorem held_pushAll {f : Framing} (hlength : f.held.length ≤ f.limit) (hfree : lineFeed ∉ f.held)
    (chunks : List Bytes) : (f.pushAll chunks).held.length ≤ f.limit ∧
      lineFeed ∉ (f.pushAll chunks).held := by
  induction chunks generalizing f with
  | nil => exact ⟨hlength, hfree⟩
  | cons chunk chunks ih =>
    have hpushed : (f.push chunk).2.held.length ≤ (f.push chunk).2.limit := by
      rw [push_limit]
      exact length_held_le f chunk
    have hlater := ih hpushed (lineFeed_not_mem_held f chunk)
    rw [push_limit] at hlater
    exact hlater

/-! ## What becomes of a line -/

/-- What becomes of a line: it is reported when its content is too long, it is read when all of it
fits, and what is read is its own content. -/
structure Settled (limit : Nat) (frame : Frame) (line : Bytes) : Prop where
  oversized : limit < (dropReturn line).length → frame = .error (.tooLong limit)
  fitting : line.length ≤ limit →
    (∃ text, frame = .ok text ∧ Text.Utf8.encode text = dropReturn line) ∨
      frame = .error .invalidUtf8 ∧ ∀ text, Text.Utf8.encode text ≠ dropReturn line
  own : ∀ text, frame = .ok text → Text.Utf8.encode text = dropReturn line

theorem length_dropReturn_le (line : Bytes) : (dropReturn line).length ≤ line.length := by
  rw [length_dropReturn]
  split <;> omega

theorem settled_frameOf (limit : Nat) (line : Bytes) : Settled limit (frameOf limit line) line := by
  refine ⟨fun hlong => (frameOf_eq_tooLong_iff limit line).2 hlong, fun hle => ?_,
    fun text htext => ?_⟩
  · have hcontent : ¬ limit < (dropReturn line).length :=
      Nat.not_lt.2 (Nat.le_trans (length_dropReturn_le line) hle)
    unfold frameOf
    dsimp only
    rw [if_neg hcontent]
    cases hdecode : Text.Utf8.decode? (dropReturn line) with
    | some text => exact .inl ⟨text, rfl, Text.Utf8.encode_of_decode? hdecode⟩
    | none =>
      refine .inr ⟨rfl, fun text htext => ?_⟩
      rw [← htext, Text.Utf8.decode_encode] at hdecode
      cases hdecode
  · unfold frameOf at htext
    dsimp only at htext
    split at htext
    · cases htext
    · split at htext
      · next hdecode =>
        cases htext
        exact Text.Utf8.encode_of_decode? hdecode
      · cases htext

/-- A report given early settles a line as its own frame does. -/
theorem IsFrameOf.settled {frame : Frame} {line : Bytes} (h : IsFrameOf limit frame line) :
    Settled limit frame line := by
  rcases h with rfl | ⟨hlong, rfl⟩
  · exact settled_frameOf limit line
  · exact ⟨fun _ => rfl, fun hle => absurd hle (Nat.not_le.2 hlong),
      fun text htext => by cases htext⟩

/-- Lines of which the first had begun with what was seen already lead to one frame each. -/
theorem forall₂_framesFrom {p : Bytes} (hp : lineFeed ∉ p) (chunk : Bytes) :
    List.Forall₂ (IsFrameOf limit) (framesFrom limit p (cut (p ++ chunk)).1)
      (cut (p ++ chunk)).1 := by
  rw [cut_beginning_append hp]
  generalize cut chunk = c
  obtain ⟨lines, left⟩ := c
  cases lines with
  | nil => exact .nil
  | cons line lines =>
    refine .cons ?_ (forall₂_map_frameOf limit lines)
    split
    · next hlong =>
      refine .inr ⟨?_, rfl⟩
      rw [List.length_append]
      omega
    · exact .inl rfl

/-- **Chunk after chunk**, each line that ends leads to one frame, in order, and the line that has
not ended to the report that it has outgrown the limit, if it has. -/
theorem exists_answers {f : Framing} {p : Bytes} (hp : lineFeed ∉ p) (h : f.IsAt p)
    (chunks : List Bytes) : ∃ answers,
      report f.limit p ++ framesOfChunks f chunks =
        answers ++ report f.limit (cut (p ++ chunks.flatten)).2 ∧
      List.Forall₂ (IsFrameOf f.limit) answers (cut (p ++ chunks.flatten)).1 := by
  induction chunks generalizing f p with
  | nil =>
    rw [List.flatten_nil, List.append_nil, cut_of_not_mem hp, framesOfChunks, List.append_nil]
    exact ⟨[], rfl, .nil⟩
  | cons chunk chunks ih =>
    obtain ⟨hat, hframes⟩ := @push_isAt f p chunk hp h
    obtain ⟨later, hlater, hsettled⟩ := ih (lineFeed_not_mem_cut_snd (p ++ chunk)) hat
    rw [push_limit] at hlater hsettled
    refine ⟨framesFrom f.limit p (cut (p ++ chunk)).1 ++ later, ?_, ?_⟩
    · rw [framesOfChunks, ← List.append_assoc, hframes, List.append_assoc, hlater,
        List.flatten_cons, ← List.append_assoc p, cut_append (p ++ chunk), List.append_assoc]
    · rw [List.flatten_cons, ← List.append_assoc p, cut_append (p ++ chunk)]
      exact List.rel_append (forall₂_framesFrom hp chunk) hsettled

/-- **Oversized input is bounded and skipped.** However a stream is cut into chunks: what is kept
after them is within the limit and holds no line feed; each line that has ended led to one frame, in
order, the report when its content is too long and its own text, or that it is none, when all of it
fits; and a line that has not ended led to the report exactly when it has outgrown the limit. -/
theorem oversized_skipped (limit : Nat) (chunks : List Bytes) :
    (drawn { limit } chunks).2.held.length ≤ limit ∧
      lineFeed ∉ (drawn { limit } chunks).2.held ∧
      ∃ lines tail answers, chunks.flatten = stream lines ++ tail ∧
        (∀ l ∈ lines, lineFeed ∉ l) ∧ lineFeed ∉ tail ∧
        (drawn { limit } chunks).1 =
          answers ++ (if limit < tail.length then [.error (.tooLong limit)] else []) ∧
        List.Forall₂ (Settled limit) answers lines := by
  have hempty : lineFeed ∉ ({ limit } : Framing).held := by simp
  obtain ⟨hlength, hfree⟩ := held_pushAll (f := { limit }) (Nat.zero_le limit) hempty chunks
  obtain ⟨answers, hframes, hanswers⟩ := exists_answers hempty (isAt_fresh limit) chunks
  obtain ⟨heq, hlines, htail⟩ := cut_spec chunks.flatten
  rw [drawn_eq]
  refine ⟨hlength, hfree, (cut chunks.flatten).1, (cut chunks.flatten).2, answers, heq.symm, hlines,
    htail, ?_, hanswers.imp fun _ _ h => h.settled⟩
  simpa [report] using hframes

end Framing

end Observatory
