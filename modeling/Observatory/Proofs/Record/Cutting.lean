import Observatory.Proofs.Record.Stream
/-!
# How a stream is cut

What a reader has seen of the line that has not ended decides what it holds and what it has
reported, whichever chunks the bytes came in. So the frames of a stream are the same however it is
cut, with one exception: a line whose content is exactly as long as the limit is reported as too
long when a chunk ends between its carriage return and its line feed, because the carriage return
still counts as content then.

* `push_isAt` — one chunk: the state after it, and the frames that it owes.
* `framesOfChunks_eq_iff` — the frames of the lines in order, and one report for a tail that has
  outgrown the limit, exactly when no chunk ends inside the end of such a line.
-/

namespace Observatory.Framing

variable {limit : Nat}

/-! ## Lines that have outgrown the limit -/

theorem length_dropReturn (line : Bytes) :
    (dropReturn line).length =
      if line.getLast? = some carriageReturn then line.length - 1 else line.length := by
  unfold dropReturn
  split
  · exact List.length_dropLast
  · rfl

/-- A frame reports that a line is too long exactly when its content is. -/
theorem frameOf_eq_tooLong_iff (limit : Nat) (line : Bytes) :
    frameOf limit line = .error (.tooLong limit) ↔ limit < (dropReturn line).length := by
  unfold frameOf
  dsimp only
  by_cases hlong : limit < (dropReturn line).length
  · rw [if_pos hlong]
    exact iff_of_true rfl hlong
  · rw [if_neg hlong]
    refine iff_of_false ?_ hlong
    intro h
    split at h <;> cases h

/-- A line that has outgrown the limit is too long in the end, unless it has done so by the carriage
return in front of its end. -/
theorem frameOf_of_outgrown {p q : Bytes} (h : limit < p.length) :
    frameOf limit (p ++ q) = .error (.tooLong limit) ↔
      ¬ (p.length = limit + 1 ∧ p.getLast? = some carriageReturn ∧ q = []) := by
  rw [frameOf_eq_tooLong_iff, length_dropReturn, List.length_append]
  cases q with
  | nil =>
    rw [List.append_nil, List.length_nil]
    by_cases hlast : p.getLast? = some carriageReturn
    · rw [if_pos hlast]
      simp only [hlast, and_true]
      omega
    · rw [if_neg hlast]
      simp only [hlast, false_and, and_false, not_false_eq_true, iff_true]
      omega
  | cons b q =>
    have hne : b :: q ≠ [] := List.cons_ne_nil b q
    rw [List.length_cons]
    simp only [hne, and_false, not_false_eq_true, iff_true]
    split <;> omega

/-! ## One chunk -/

/-- The report of a line that has not ended. -/
def report (limit : Nat) (p : Bytes) : List Frame :=
  if limit < p.length then [.error (.tooLong limit)] else []

/-- A reader that has seen this much of the line that has not ended: it holds all of it, or it has
reported the line and skips what comes of it. -/
structure IsAt (f : Framing) (p : Bytes) : Prop where
  discarding : f.discarding = decide (f.limit < p.length)
  held : p.length ≤ f.limit → f.held = p
  lineFree : lineFeed ∉ f.held

/-- The frames of lines of which the first had begun with what was seen already. -/
def framesFrom (limit : Nat) (p : Bytes) : List Bytes → List Frame
  | [] => []
  | line :: lines =>
    (if limit < p.length then .error (.tooLong limit) else frameOf limit line) ::
      lines.map (frameOf limit)

theorem length_framesFrom (p : Bytes) (lines : List Bytes) :
    (framesFrom limit p lines).length = lines.length := by
  cases lines with
  | nil => rfl
  | cons line lines => simp [framesFrom]

theorem framesFrom_of_le {p : Bytes} (h : p.length ≤ limit) (lines : List Bytes) :
    framesFrom limit p lines = lines.map (frameOf limit) := by
  cases lines with
  | nil => rfl
  | cons line lines =>
    rw [framesFrom, if_neg (Nat.not_lt.2 h), List.map_cons]

theorem isAt_fresh (limit : Nat) : IsAt { limit } [] := by
  refine ⟨?_, ?_, ?_⟩
  · simp
  · intro _
    rfl
  · simp

/-- What is left of a chunk behind its last line is the beginning of a new line. -/
theorem isAt_left {f : Framing} {left : Bytes} (hleft : lineFeed ∉ left) (frames : List Frame) :
    let r := if left.length ≤ f.limit then (frames, { f with held := left, discarding := false })
      else (frames ++ [.error (.tooLong f.limit)], { f with held := [], discarding := true })
    r.2.IsAt left ∧ r.1 = frames ++ report f.limit left := by
  intro r
  by_cases hlong : f.limit < left.length
  · have hle : ¬ left.length ≤ f.limit := by omega
    have hr : r = (frames ++ [.error (.tooLong f.limit)],
        { f with held := [], discarding := true }) := if_neg hle
    rw [hr, report, if_pos hlong]
    refine ⟨⟨?_, ?_, ?_⟩, rfl⟩
    · simp [hlong]
    · intro h
      exact absurd h hle
    · simp
  · have hle : left.length ≤ f.limit := by omega
    have hr : r = (frames, { f with held := left, discarding := false }) := if_pos hle
    rw [hr, report, if_neg hlong, List.append_nil]
    refine ⟨⟨?_, ?_, hleft⟩, rfl⟩
    · simp [hlong]
    · intro _
      rfl

/-- What a chunk does to a reader that holds all of the line. -/
theorem push_of_holds {f : Framing} {p chunk : Bytes} (hle : p.length ≤ f.limit)
    (hheld : f.held = p) (hskip : f.discarding = false) :
    (f.push chunk).2.IsAt (cut (p ++ chunk)).2 ∧
      (f.push chunk).1 = framesFrom f.limit p (cut (p ++ chunk)).1 ++
        report f.limit (cut (p ++ chunk)).2 := by
  have hleft := lineFeed_not_mem_cut_snd (p ++ chunk)
  rw [framesFrom_of_le hle]
  unfold push
  rw [hheld, hskip]
  generalize cut (p ++ chunk) = c at hleft ⊢
  obtain ⟨lines, left⟩ := c
  simp only [framesOf_false, Bool.false_and, Bool.false_eq_true, if_false]
  exact isAt_left hleft (lines.map (frameOf f.limit))

/-- What a chunk does to a reader that skips the line. -/
theorem push_of_skips {f : Framing} {p chunk : Bytes} (hp : lineFeed ∉ p)
    (hheld : lineFeed ∉ f.held) (hlong : f.limit < p.length) (hskip : f.discarding = true) :
    (f.push chunk).2.IsAt (cut (p ++ chunk)).2 ∧
      report f.limit p ++ (f.push chunk).1 = framesFrom f.limit p (cut (p ++ chunk)).1 ++
        report f.limit (cut (p ++ chunk)).2 := by
  have hleft := lineFeed_not_mem_cut_snd chunk
  have hreport : report f.limit p = [.error (.tooLong f.limit)] := by rw [report, if_pos hlong]
  rw [hreport]
  unfold push
  rw [hskip, cut_beginning_append hp, cut_beginning_append hheld]
  generalize cut chunk = c at hleft ⊢
  obtain ⟨lines, left⟩ := c
  cases lines with
  | nil =>
    -- the line goes on
    have hlong' : f.limit < (p ++ left).length := by
      rw [List.length_append]
      omega
    have hfree : lineFeed ∉ f.held ++ left := by
      rw [List.mem_append, not_or]
      exact ⟨hheld, hleft⟩
    have hat (held : Bytes) (hheld : lineFeed ∉ held) :
        IsAt { f with held, discarding := true } (p ++ left) := by
      refine ⟨?_, ?_, hheld⟩
      · simpa using hlong'
      · intro h
        exact absurd hlong' (Nat.not_lt.2 h)
    simp only [framesOf_nil, List.isEmpty_nil, Bool.and_self, if_true, framesFrom]
    rw [report, if_pos hlong']
    split
    · exact ⟨hat _ hfree, rfl⟩
    · exact ⟨hat _ (by simp), rfl⟩
  | cons line lines =>
    -- the line ends, and what is left is the beginning of another one
    obtain ⟨hat, hframes⟩ := isAt_left (f := f) hleft (lines.map (frameOf f.limit))
    simp only [framesOf_true_cons, List.isEmpty_cons, Bool.and_false, Bool.false_eq_true,
      if_false, framesFrom, if_pos hlong]
    refine ⟨hat, ?_⟩
    rw [hframes]
    rfl

/-- **One chunk.** The reader has then seen what the chunk leaves unfinished; and its frames are
those of the lines that end in it, and a report if the line that is left has outgrown the limit,
but for the report that was made before. -/
theorem push_isAt {f : Framing} {p chunk : Bytes} (hp : lineFeed ∉ p) (h : f.IsAt p) :
    (f.push chunk).2.IsAt (cut (p ++ chunk)).2 ∧
      report f.limit p ++ (f.push chunk).1 = framesFrom f.limit p (cut (p ++ chunk)).1 ++
        report f.limit (cut (p ++ chunk)).2 := by
  by_cases hlong : f.limit < p.length
  · have hskip : f.discarding = true := by simp [h.discarding, hlong]
    exact push_of_skips hp h.lineFree hlong hskip
  · have hle : p.length ≤ f.limit := by omega
    have hskip : f.discarding = false := by simp [h.discarding, hlong]
    have hnone : report f.limit p = [] := by rw [report, if_neg hlong]
    rw [hnone, List.nil_append]
    exact push_of_holds hle (h.held hle) hskip

/-! ## Chunks that part the end of a line -/

/-- The end of a line is parted, and the line is exactly as long as the limit: all of it but its
line feed has arrived, the carriage return included, and the next chunk brings the line feed. -/
def Parts (limit : Nat) (arrived chunk : Bytes) : Prop :=
  (cut arrived).2.length = limit + 1 ∧ (cut arrived).2.getLast? = some carriageReturn ∧
    chunk.head? = some lineFeed

instance (limit : Nat) (arrived chunk : Bytes) : Decidable (Parts limit arrived chunk) :=
  inferInstanceAs (Decidable (_ ∧ _ ∧ _))

/-- What arrived in front of the unfinished line plays no part. -/
theorem parts_append (a b chunk : Bytes) :
    Parts limit (a ++ b) chunk ↔ Parts limit ((cut a).2 ++ b) chunk := by
  rw [Parts, Parts, cut_append a b]

/-- The lines that end in a chunk lead to their own frames, unless the chunk parts the end of the
first of them. -/
theorem framesFrom_eq_map_iff {p : Bytes} (hp : lineFeed ∉ p) (chunk : Bytes) :
    framesFrom limit p (cut (p ++ chunk)).1 = (cut (p ++ chunk)).1.map (frameOf limit) ↔
      ¬ Parts limit p chunk := by
  obtain ⟨heq, hlines, hleft⟩ := cut_spec chunk
  rw [Parts, cut_of_not_mem hp, cut_beginning_append hp]
  generalize cut chunk = c at heq hlines hleft ⊢
  obtain ⟨lines, left⟩ := c
  cases lines with
  | nil =>
    -- no line ends in the chunk, so it does not begin with a line feed
    rw [stream_nil, List.nil_append] at heq
    refine iff_of_true rfl ?_
    rintro ⟨-, -, hhead⟩
    rw [heq] at hleft
    exact hleft (List.mem_of_mem_head? hhead)
  | cons line lines =>
    by_cases hlong : limit < p.length
    · have hempty : chunk.head? = some lineFeed ↔ line = [] := by
        rw [stream_cons, List.append_assoc, List.cons_append] at heq
        rw [← heq]
        cases line with
        | nil => simp
        | cons b line =>
          have hb : b ≠ lineFeed := fun hb => hlines (b :: line) (by simp) (by simp [hb])
          simp [hb]
      rw [hempty, ← frameOf_of_outgrown hlong]
      simp only [framesFrom, if_pos hlong, List.map_cons, List.cons.injEq, and_true]
      exact eq_comm
    · refine iff_of_true (framesFrom_of_le (by omega) _) ?_
      rintro ⟨hlength, -, -⟩
      dsimp only at hlength
      omega

/-! ## Several chunks -/

/-- What is said of every chunk and of all that arrived in front of it, said of the first chunk and
of the others. -/
theorem forall_chunks_cons {q : Bytes → Bytes → Prop} (c : Bytes) (cs : List Bytes) :
    (∀ before chunk after, c :: cs = before ++ chunk :: after → q before.flatten chunk) ↔
      q [] c ∧
        ∀ before chunk after, cs = before ++ chunk :: after → q (c ++ before.flatten) chunk := by
  constructor
  · intro h
    refine ⟨h [] c cs rfl, ?_⟩
    intro before chunk after heq
    exact h (c :: before) chunk after (by rw [heq, List.cons_append])
  · rintro ⟨hfirst, hlater⟩ before chunk after heq
    cases before with
    | nil =>
      rw [List.nil_append, List.cons.injEq] at heq
      obtain ⟨rfl, -⟩ := heq
      exact hfirst
    | cons b before =>
      rw [List.cons_append, List.cons.injEq] at heq
      obtain ⟨rfl, hcs⟩ := heq
      exact hlater before chunk after hcs

/-- **Several chunks.** A reader that has seen the beginning of a line gives the frames of that
line and of those behind it, exactly when no chunk parts the end of a line of the longest length. -/
theorem framesOfChunks_eq_iff_of_isAt {f : Framing} {p : Bytes} (hp : lineFeed ∉ p) (h : f.IsAt p)
    (chunks : List Bytes) :
    report f.limit p ++ framesOfChunks f chunks =
        (cut (p ++ chunks.flatten)).1.map (frameOf f.limit) ++
          report f.limit (cut (p ++ chunks.flatten)).2 ↔
      ∀ before chunk after, chunks = before ++ chunk :: after →
        ¬ Parts f.limit (p ++ before.flatten) chunk := by
  induction chunks generalizing f p with
  | nil =>
    rw [List.flatten_nil, List.append_nil, cut_of_not_mem hp, framesOfChunks, List.append_nil]
    refine iff_of_true rfl ?_
    intro before chunk after heq
    exact absurd heq.symm (by simp)
  | cons chunk chunks ih =>
    obtain ⟨hat, hframes⟩ := @push_isAt f p chunk hp h
    have hleft := lineFeed_not_mem_cut_snd (p ++ chunk)
    have hlater := ih hleft hat
    have hlength : (framesFrom f.limit p (cut (p ++ chunk)).1).length =
        ((cut (p ++ chunk)).1.map (frameOf f.limit)).length := by
      rw [length_framesFrom, List.length_map]
    rw [push_limit] at hlater
    rw [framesOfChunks, ← List.append_assoc, hframes, List.append_assoc, List.flatten_cons,
      ← List.append_assoc p, cut_append (p ++ chunk), List.map_append, List.append_assoc,
      forall_chunks_cons (q := fun arrived chunk => ¬ Parts f.limit (p ++ arrived) chunk)]
    -- the lines that end in this chunk, and those behind them
    constructor
    · intro heq
      obtain ⟨hnow, hthen⟩ := List.append_inj heq hlength
      refine ⟨?_, ?_⟩
      · rw [List.append_nil]
        exact (framesFrom_eq_map_iff hp chunk).1 hnow
      · intro before later after hchunks
        rw [← List.append_assoc, parts_append]
        exact hlater.1 hthen before later after hchunks
    · rintro ⟨hnow, hthen⟩
      rw [List.append_nil] at hnow
      rw [(framesFrom_eq_map_iff hp chunk).2 hnow]
      refine congrArg _ (hlater.2 ?_)
      intro before later after hchunks
      rw [← parts_append, List.append_assoc]
      exact hthen before later after hchunks

/-- **However a stream is cut**, its frames are those of its lines, in order, and at most one
report more, of a tail that has outgrown the limit: exactly when no chunk parts the end of a line
whose content is as long as the limit. -/
theorem framesOfChunks_eq_iff {lines : List Bytes} {tail : Bytes}
    (hlines : ∀ l ∈ lines, lineFeed ∉ l) (htail : lineFeed ∉ tail) {chunks : List Bytes}
    (hchunks : chunks.flatten = stream lines ++ tail) :
    framesOfChunks { limit } chunks = lines.map (frameOf limit) ++ report limit tail ↔
      ∀ before chunk after, chunks = before ++ chunk :: after →
        ¬ Parts limit before.flatten chunk := by
  have h := framesOfChunks_eq_iff_of_isAt (by simp) (isAt_fresh limit) chunks
  rw [List.nil_append, hchunks, cut_stream_append hlines htail] at h
  exact h

theorem framesOfChunks_of_parted_content :
    framesOfChunks { limit := 3 } [Text.Utf8.encode "ab", Text.Utf8.encode "c\r\nde"] =
      [.ok "abc"] := by
  have hlines : ∀ l ∈ [Text.Utf8.encode "abc\r"], lineFeed ∉ l := by decide
  have htail : lineFeed ∉ Text.Utf8.encode "de" := by decide
  refine (framesOfChunks_eq_iff hlines htail rfl).2 ?_
  rintro (_ | ⟨_, _ | ⟨_, before⟩⟩) chunk after heq
  · cases heq
    decide
  · cases heq
    decide
  · simp at heq

/-- A line whose content is as long as the limit is read when it arrives at once, and reported as
too long when a chunk ends between its carriage return and its line feed. -/
theorem framesOfChunks_of_parted_end :
    framesOfChunks { limit := 3 } [Text.Utf8.encode "abc\r\n"] = [.ok "abc"] ∧
      framesOfChunks { limit := 3 } [Text.Utf8.encode "abc\r", Text.Utf8.encode "\n"] =
        [.error (.tooLong 3)] := by
  exact ⟨rfl, rfl⟩

end Observatory.Framing
