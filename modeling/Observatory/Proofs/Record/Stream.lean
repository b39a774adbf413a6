import Mathlib.Data.List.Forall2
import Observatory.Proofs.Text.OneLine
import Observatory.Record.Framing
/-!
# Streams of lines

The bytes of a peer are lines, each with its line feed, and they arrive in chunks cut anywhere.
Whatever the chunks are, each line leads to one frame: its own, or the report that it is too
long, which a reader may give before it has seen all of the line.

* `cut_stream_append` — lines and what follows the last of them are found again.
* `cut_append` — bytes that arrive one after the other can be cut one after the other.
* `push_awaits` — one chunk: the frames it gives are those of the next lines, in order, and the
  lines behind them are still awaited.
-/

namespace Observatory.Framing

/-- The bytes of lines, each with its end. -/
def stream (lines : List Bytes) : Bytes := lines.flatMap (· ++ [lineFeed])

@[simp] theorem stream_nil : stream [] = [] := rfl

@[simp] theorem stream_cons (l : Bytes) (ls : List Bytes) :
    stream (l :: ls) = l ++ lineFeed :: stream ls := by
  simp [stream]

@[simp] theorem stream_append (a b : List Bytes) : stream (a ++ b) = stream a ++ stream b := by
  simp [stream]

/-! ## Cutting -/

@[simp] theorem cut_nil : cut [] = ([], []) := rfl

@[simp] theorem cut_lineFeed_cons (bs : Bytes) :
    cut (lineFeed :: bs) = ([] :: (cut bs).1, (cut bs).2) := rfl

theorem cut_cons_of_ne {b : UInt8} (hb : b ≠ lineFeed) (bs : Bytes) :
    cut (b :: bs) = match cut bs with
      | ([], rest) => ([], b :: rest)
      | (line :: lines, rest) => ((b :: line) :: lines, rest) := by
  rw [cut, List.foldr_cons, ← cut]
  dsimp only
  rw [if_neg hb]
  obtain ⟨lines, rest⟩ := cut bs
  cases lines <;> rfl

theorem cut_of_not_mem {bs : Bytes} (h : lineFeed ∉ bs) : cut bs = ([], bs) := by
  induction bs with
  | nil => rfl
  | cons b bs ih =>
    simp only [List.mem_cons, not_or] at h
    rw [cut_cons_of_ne (Ne.symm h.1), ih h.2]

theorem cut_line_append {l : Bytes} (h : lineFeed ∉ l) (bs : Bytes) :
    cut (l ++ lineFeed :: bs) = (l :: (cut bs).1, (cut bs).2) := by
  induction l with
  | nil => rfl
  | cons b l ih =>
    simp only [List.mem_cons, not_or] at h
    rw [List.cons_append, cut_cons_of_ne (Ne.symm h.1), ih h.2]

/-- Complete lines are cut off in front. -/
theorem cut_stream {lines : List Bytes} (h : ∀ l ∈ lines, lineFeed ∉ l) (bs : Bytes) :
    cut (stream lines ++ bs) = (lines ++ (cut bs).1, (cut bs).2) := by
  induction lines with
  | nil => rfl
  | cons l ls ih =>
    rw [stream_cons, List.append_assoc, List.cons_append, cut_line_append (h l (by simp)),
      ih fun l hl => h l (by simp [hl])]
    rfl

/-- Lines and what follows the last of them are found again. -/
theorem cut_stream_append {lines : List Bytes} (h : ∀ l ∈ lines, lineFeed ∉ l) {rest : Bytes}
    (hrest : lineFeed ∉ rest) : cut (stream lines ++ rest) = (lines, rest) := by
  rw [cut_stream h, cut_of_not_mem hrest, List.append_nil]

theorem cut_spec (bs : Bytes) : stream (cut bs).1 ++ (cut bs).2 = bs ∧
    (∀ l ∈ (cut bs).1, lineFeed ∉ l) ∧ lineFeed ∉ (cut bs).2 := by
  induction bs with
  | nil => simp
  | cons b bs ih =>
    obtain ⟨heq, hlines, hrest⟩ := ih
    by_cases hb : b = lineFeed
    · subst hb
      rw [cut_lineFeed_cons]
      refine ⟨by simp [heq], fun l hl => ?_, hrest⟩
      rcases List.mem_cons.1 hl with rfl | hl
      · simp
      · exact hlines l hl
    · rw [cut_cons_of_ne hb]
      revert heq hlines hrest
      obtain ⟨lines, rest⟩ := cut bs
      cases lines with
      | nil =>
        intro heq _ hrest
        simp only [stream_nil, List.nil_append] at heq
        exact ⟨by simp [heq], by simp, by simp [Ne.symm hb, hrest]⟩
      | cons l ls =>
        intro heq hlines hrest
        refine ⟨by simpa using heq, fun k hk => ?_, hrest⟩
        rcases List.mem_cons.1 hk with rfl | hk
        · simp [Ne.symm hb, hlines l (by simp)]
        · exact hlines k (by simp [hk])

theorem stream_cut (bs : Bytes) : stream (cut bs).1 ++ (cut bs).2 = bs := (cut_spec bs).1

theorem lineFeed_not_mem_cut_fst {bs l : Bytes} (h : l ∈ (cut bs).1) : lineFeed ∉ l :=
  (cut_spec bs).2.1 l h

theorem lineFeed_not_mem_cut_snd (bs : Bytes) : lineFeed ∉ (cut bs).2 := (cut_spec bs).2.2

/-- Bytes are cut in two steps: first those that have arrived, and then what they leave with all
that follows. -/
theorem cut_append (a b : Bytes) :
    cut (a ++ b) = ((cut a).1 ++ (cut ((cut a).2 ++ b)).1, (cut ((cut a).2 ++ b)).2) := by
  obtain ⟨heq, hlines, -⟩ := cut_spec a
  have ha : a ++ b = stream (cut a).1 ++ ((cut a).2 ++ b) := by rw [← List.append_assoc, heq]
  rw [ha, cut_stream hlines]

/-- The beginning of a line goes to the first line, or to what is left when there is none. -/
theorem cut_beginning_append {p : Bytes} (hp : lineFeed ∉ p) (bs : Bytes) :
    cut (p ++ bs) = match cut bs with
      | ([], rest) => ([], p ++ rest)
      | (line :: lines, rest) => ((p ++ line) :: lines, rest) := by
  induction p with
  | nil =>
    rw [List.nil_append]
    obtain ⟨lines, rest⟩ := cut bs
    cases lines <;> rfl
  | cons b p ih =>
    simp only [List.mem_cons, not_or] at hp
    rw [List.cons_append, cut_cons_of_ne (Ne.symm hp.1), ih hp.2]
    obtain ⟨lines, rest⟩ := cut bs
    cases lines <;> rfl

/-! ## Comparing streams -/

/-- The first line feed of a text is in one place. -/
theorem line_append_inj {l k a b : Bytes} (hl : lineFeed ∉ l) (hk : lineFeed ∉ k)
    (h : l ++ lineFeed :: a = k ++ lineFeed :: b) : l = k ∧ a = b := by
  induction l generalizing k with
  | nil =>
    cases k with
    | nil => exact ⟨rfl, by simpa using h⟩
    | cons c k =>
      simp only [List.nil_append, List.cons_append, List.cons.injEq] at h
      exact absurd (by simp [h.1]) hk
  | cons c l ih =>
    cases k with
    | nil =>
      simp only [List.nil_append, List.cons_append, List.cons.injEq] at h
      exact absurd (by simp [h.1]) hl
    | cons d k =>
      simp only [List.cons_append, List.cons.injEq, List.mem_cons, not_or] at h hl hk
      obtain ⟨rfl, rfl⟩ := ih hl.2 hk.2 h.2
      exact ⟨by rw [h.1], rfl⟩

/-- Lines at the front of a stream are its first lines. -/
theorem eq_append_of_stream_append {ls lines : List Bytes} {b : Bytes}
    (hls : ∀ l ∈ ls, lineFeed ∉ l) (hlines : ∀ l ∈ lines, lineFeed ∉ l)
    (h : stream ls ++ b = stream lines) : ∃ left, lines = ls ++ left ∧ b = stream left := by
  induction ls generalizing lines with
  | nil => exact ⟨lines, rfl, by simpa using h⟩
  | cons l ls ih =>
    cases lines with
    | nil => simp at h
    | cons k lines =>
      rw [stream_cons, stream_cons, List.append_assoc, List.cons_append] at h
      obtain ⟨rfl, h'⟩ := line_append_inj (hls l (by simp)) (hlines k (by simp)) h
      obtain ⟨left, rfl, hb⟩ := ih (fun l hl => hls l (by simp [hl]))
        (fun l hl => hlines l (by simp [hl])) h'
      exact ⟨left, rfl, hb⟩

/-- The beginning of a line, cut off in front of its end. -/
theorem exists_tail_of_append {rest coming l bs : Bytes} (hrest : lineFeed ∉ rest)
    (h : rest ++ coming = l ++ lineFeed :: bs) :
    ∃ tail, l = rest ++ tail ∧ coming = tail ++ lineFeed :: bs := by
  rcases List.append_eq_append_iff.1 h with ⟨tail, rfl, hc⟩ | ⟨m, rfl, hc⟩
  · exact ⟨tail, rfl, hc⟩
  · cases m with
    | nil => exact ⟨[], by simp, by simpa using hc.symm⟩
    | cons c m =>
      simp only [List.cons_append, List.cons.injEq] at hc
      exact absurd (by simp [hc.1]) hrest

/-! ## Awaited lines -/

/-- What a line may lead to: its frame, or an early report that it is too long. -/
def IsFrameOf (limit : Nat) (frame : Frame) (line : Bytes) : Prop :=
  frame = frameOf limit line ∨ limit < line.length ∧ frame = .error (.tooLong limit)

/-- The lines that a reader has still to make frames of: what it holds and what is to come are
these lines, behind the rest of a line that it skips. -/
def Awaits (f : Framing) (coming : Bytes) (lines : List Bytes) : Prop :=
  if f.discarding then
    ∃ tail, lineFeed ∉ tail ∧ f.held ++ coming = tail ++ lineFeed :: stream lines
  else f.held ++ coming = stream lines

theorem awaits_fresh {f : Framing} (hheld : f.held = []) (hskip : f.discarding = false)
    (lines : List Bytes) : Awaits f (stream lines) lines := by
  simp [Awaits, hheld, hskip]

theorem Awaits.append {f : Framing} {coming : Bytes} {lines : List Bytes}
    (h : Awaits f coming lines) (more : List Bytes) :
    Awaits f (coming ++ stream more) (lines ++ more) := by
  unfold Awaits at h ⊢
  split
  · next hd =>
    rw [if_pos hd] at h
    obtain ⟨tail, htail, h⟩ := h
    exact ⟨tail, htail, by rw [← List.append_assoc, h]; simp⟩
  · next hd =>
    rw [if_neg hd] at h
    rw [← List.append_assoc, h, stream_append]

@[simp] theorem push_limit (f : Framing) (chunk : Bytes) : (f.push chunk).2.limit = f.limit := by
  unfold push
  dsimp only
  split
  · rfl
  · split <;> rfl

theorem forall₂_map_frameOf (limit : Nat) (lines : List Bytes) :
    List.Forall₂ (IsFrameOf limit) (lines.map (frameOf limit)) lines := by
  induction lines with
  | nil => exact .nil
  | cons l ls ih => exact .cons (.inl rfl) ih

@[simp] theorem framesOf_false (limit : Nat) (lines : List Bytes) :
    framesOf limit false lines = lines.map (frameOf limit) := by
  cases lines <;> rfl

@[simp] theorem framesOf_true_cons (limit : Nat) (l : Bytes) (lines : List Bytes) :
    framesOf limit true (l :: lines) = lines.map (frameOf limit) := rfl

@[simp] theorem framesOf_nil (limit : Nat) (skip : Bool) : framesOf limit skip [] = [] := by
  cases skip <;> rfl

/-- What a chunk does once its complete lines are taken off. -/
theorem push_awaits_of_rest {f : Framing} {rest coming : Bytes} {done left : List Bytes}
    {frames : List Frame} (hrest : lineFeed ∉ rest) (hleft : ∀ l ∈ left, lineFeed ∉ l)
    (hframes : List.Forall₂ (IsFrameOf f.limit) frames done) (h : rest ++ coming = stream left) :
    ∃ done' left', done ++ left = done' ++ left' ∧
      List.Forall₂ (IsFrameOf f.limit)
        (if rest.length ≤ f.limit then frames else frames ++ [.error (.tooLong f.limit)]) done' ∧
      Awaits (if rest.length ≤ f.limit then { f with held := rest, discarding := false }
        else { f with held := [], discarding := true }) coming left' := by
  split
  · exact ⟨done, left, rfl, hframes, by simpa [Awaits] using h⟩
  · next hlong =>
    cases left with
    | nil =>
      have : rest = [] := (List.append_eq_nil_iff.1 h).1
      simp [this] at hlong
    | cons l left =>
      rw [stream_cons] at h
      obtain ⟨tail, rfl, hcoming⟩ := exists_tail_of_append hrest h
      have htail : lineFeed ∉ tail := fun hm =>
        hleft (rest ++ tail) List.mem_cons_self (List.mem_append_right _ hm)
      refine ⟨done ++ [rest ++ tail], left, by simp, ?_, ?_⟩
      · refine List.rel_append hframes (.cons (.inr ⟨?_, rfl⟩) .nil)
        rw [List.length_append]
        omega
      · simp only [Awaits, if_true, List.nil_append]
        exact ⟨tail, htail, hcoming⟩

/-- **One chunk.** Its frames are those of the next lines, in order, and the lines behind them are
still awaited. -/
theorem push_awaits {f : Framing} {chunk coming : Bytes} {lines : List Bytes}
    (hlines : ∀ l ∈ lines, lineFeed ∉ l) (h : Awaits f (chunk ++ coming) lines) :
    ∃ done left, lines = done ++ left ∧
      List.Forall₂ (IsFrameOf f.limit) (f.push chunk).1 done ∧
      Awaits (f.push chunk).2 coming left := by
  have hcut := stream_cut (f.held ++ chunk)
  have hrest := lineFeed_not_mem_cut_snd (f.held ++ chunk)
  have hfree := fun l => @lineFeed_not_mem_cut_fst (f.held ++ chunk) l
  unfold push
  generalize cut (f.held ++ chunk) = c at hcut hrest hfree ⊢
  obtain ⟨ls, rest⟩ := c
  dsimp only at hcut hrest hfree ⊢
  unfold Awaits at h
  rw [← List.append_assoc, ← hcut, List.append_assoc] at h
  cases hd : f.discarding with
  | false =>
    rw [hd, if_neg Bool.false_ne_true] at h
    obtain ⟨left, hleft, hcoming⟩ := eq_append_of_stream_append hfree hlines h
    rw [hleft] at hlines ⊢
    have := push_awaits_of_rest hrest (fun l hl => hlines l (by simp [hl]))
      (forall₂_map_frameOf f.limit ls) hcoming
    rw [framesOf_false]
    by_cases hlong : rest.length ≤ f.limit
    · simpa only [if_pos hlong, Bool.false_and] using this
    · simpa only [if_neg hlong, Bool.false_and, Bool.false_eq_true, if_false] using this
  | true =>
    rw [hd, if_pos rfl] at h
    obtain ⟨tail, htail, h⟩ := h
    rw [← stream_cons] at h
    have hlines' : ∀ l ∈ tail :: lines, lineFeed ∉ l := by simpa using ⟨htail, hlines⟩
    obtain ⟨left, hleft, hcoming⟩ := eq_append_of_stream_append hfree hlines' h
    cases ls with
    | cons k ls =>
      -- the skipped line has come to its end
      rw [List.cons_append, List.cons.injEq] at hleft
      obtain ⟨rfl, hls⟩ := hleft
      rw [hls] at hlines ⊢
      have := push_awaits_of_rest hrest (fun l hl => hlines l (by simp [hl]))
        (forall₂_map_frameOf f.limit ls) hcoming
      rw [framesOf_true_cons]
      by_cases hlong : rest.length ≤ f.limit
      · simpa only [if_pos hlong, List.isEmpty_cons, Bool.and_false] using this
      · simpa only [if_neg hlong, List.isEmpty_cons, Bool.and_false, Bool.false_eq_true,
          if_false] using this
    | nil =>
      -- it goes on behind this chunk
      rw [List.nil_append] at hleft
      subst hleft
      refine ⟨[], lines, rfl, ?_, ?_⟩
      · split <;> exact .nil
      · split
        · exact ⟨tail, htail, by simpa using hcoming⟩
        · rw [stream_cons] at hcoming
          obtain ⟨tail', rfl, hcoming⟩ := exists_tail_of_append hrest hcoming
          exact ⟨tail', fun hm => htail (List.mem_append_right _ hm), by simpa using hcoming⟩

/-! ## Several chunks -/

/-- The frames that chunks lead to, one chunk after the other. -/
def framesOfChunks (f : Framing) : List Bytes → List Frame
  | [] => []
  | chunk :: chunks => (f.push chunk).1 ++ framesOfChunks (f.push chunk).2 chunks

/-- What is held is the beginning of one line. -/
theorem lineFeed_not_mem_held (f : Framing) (chunk : Bytes) :
    lineFeed ∉ (f.push chunk).2.held := by
  have hrest := lineFeed_not_mem_cut_snd (f.held ++ chunk)
  unfold push
  generalize cut (f.held ++ chunk) = c at hrest ⊢
  obtain ⟨ls, rest⟩ := c
  dsimp only at hrest ⊢
  split
  · exact hrest
  · split <;> simp

/-- Nothing is awaited when nothing is to come. -/
theorem Awaits.eq_nil {f : Framing} {lines : List Bytes} (hheld : lineFeed ∉ f.held)
    (h : Awaits f [] lines) : lines = [] := by
  unfold Awaits at h
  rw [List.append_nil] at h
  split at h
  · obtain ⟨tail, -, h⟩ := h
    rw [h] at hheld
    simp at hheld
  · cases lines with
    | nil => rfl
    | cons l ls =>
      rw [h] at hheld
      simp at hheld

/-- **Several chunks** lead to one frame a line, in order. -/
theorem forall₂_framesOfChunks {f : Framing} {chunks lines : List Bytes}
    (hlines : ∀ l ∈ lines, lineFeed ∉ l) (hheld : lineFeed ∉ f.held)
    (h : Awaits f chunks.flatten lines) :
    List.Forall₂ (IsFrameOf f.limit) (framesOfChunks f chunks) lines := by
  induction chunks generalizing f lines with
  | nil =>
    rw [h.eq_nil hheld]
    exact .nil
  | cons chunk chunks ih =>
    rw [List.flatten_cons] at h
    obtain ⟨done, left, rfl, hdone, hleft⟩ := push_awaits hlines h
    have hrest := ih (fun l hl => hlines l (List.mem_append_right _ hl))
      (lineFeed_not_mem_held f chunk) hleft
    rw [push_limit] at hrest
    exact List.rel_append hdone hrest

/-! ## Lines of text -/

theorem dropReturn_of_not_mem {line : Bytes} (h : carriageReturn ∉ line) :
    dropReturn line = line := by
  unfold dropReturn
  rw [if_neg fun hlast => h (List.mem_of_getLast? hlast)]

/-- A line of text is read as that text, unless it is too long. -/
theorem frameOf_encode (limit : Nat) {cs : List Char} (h : Text.OneLine cs) :
    frameOf limit (Text.Utf8.encode (String.ofList cs)) =
      if limit < (Text.Utf8.encode (String.ofList cs)).length then .error (.tooLong limit)
      else .ok (String.ofList cs) := by
  simp only [frameOf, dropReturn_of_not_mem h.carriageReturn_not_mem_encode,
    Text.Utf8.decode_encode]

theorem isFrameOf_encode {limit : Nat} {frame : Frame} {cs : List Char} (hcs : Text.OneLine cs)
    (h : IsFrameOf limit frame (Text.Utf8.encode (String.ofList cs))) :
    limit < (Text.Utf8.encode (String.ofList cs)).length ∧ frame = .error (.tooLong limit) ∨
      frame = .ok (String.ofList cs) := by
  rcases h with h | h
  · rw [frameOf_encode limit hcs] at h
    by_cases hlong : limit < (Text.Utf8.encode (String.ofList cs)).length
    · rw [if_pos hlong] at h
      exact .inl ⟨hlong, h⟩
    · rw [if_neg hlong] at h
      exact .inr h
  · exact .inl h

/-- A line of text that fits is read as it was written. -/
theorem eq_map_of_forall₂ {limit : Nat} {texts : List (List Char)}
    (htexts : ∀ t ∈ texts, Text.OneLine t)
    (hfit : ∀ t ∈ texts, (Text.Utf8.encode (String.ofList t)).length ≤ limit) {frames : List Frame}
    (h : List.Forall₂ (IsFrameOf limit) frames
      (texts.map fun t => Text.Utf8.encode (String.ofList t))) :
    frames = texts.map fun t => .ok (String.ofList t) := by
  induction texts generalizing frames with
  | nil =>
    cases h
    rfl
  | cons t ts ih =>
    cases h with
    | cons hframe hframes =>
      rcases isFrameOf_encode (htexts t List.mem_cons_self) hframe with ⟨hlong, -⟩ | hframe
      · exact absurd (hfit t List.mem_cons_self) (Nat.not_le.2 hlong)
      · rw [hframe, ih (fun t ht => htexts t (List.mem_cons_of_mem _ ht))
          (fun t ht => hfit t (List.mem_cons_of_mem _ ht)) hframes, List.map_cons]

/-- Lines of text that fit are read as they were written, however they are cut into chunks. -/
theorem framesOfChunks_texts {f : Framing} (hheld : f.held = []) (hskip : f.discarding = false)
    {texts : List (List Char)} (htexts : ∀ t ∈ texts, Text.OneLine t)
    (hfit : ∀ t ∈ texts, (Text.Utf8.encode (String.ofList t)).length ≤ f.limit)
    {chunks : List Bytes}
    (hchunks : chunks.flatten = stream (texts.map fun t => Text.Utf8.encode (String.ofList t))) :
    framesOfChunks f chunks = texts.map fun t => .ok (String.ofList t) := by
  have hlines (l : Bytes) (hl : l ∈ texts.map fun t => Text.Utf8.encode (String.ofList t)) :
      lineFeed ∉ l := by
    obtain ⟨t, ht, rfl⟩ := List.mem_map.1 hl
    exact (htexts t ht).lineFeed_not_mem_encode
  exact eq_map_of_forall₂ htexts hfit (forall₂_framesOfChunks hlines (by simp [hheld])
    (hchunks ▸ awaits_fresh hheld hskip _))

end Observatory.Framing
