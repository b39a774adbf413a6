import Observatory.Proofs.Record.Stream
/-!
# Lines that lie ahead

How many lines of some kind a reader has still to make frames of. What is to come may end in the
middle of a line. Whatever is written behind it is the end of that line, so nobody can say yet of
what kind it will be, and it counts in any case.

* `Framing.aheadOf` — how many such lines there are at most.
* `Framing.aheadOf_push_le` — a chunk: its frames come out of that number.
* `Framing.aheadOf_append_le` — lines of another kind that are written add nothing to it.
-/

namespace Observatory.Framing

/-- How many lines at the front belong to one that is being skipped. -/
def skipped (f : Framing) : Nat := if f.discarding then 1 else 0

/-- The lines that are complete in what a reader holds and what is to come. -/
def ahead (f : Framing) (coming : Bytes) : List Bytes :=
  (cut (f.held ++ coming)).1.drop f.skipped

/-- How many lines of a kind lie ahead at most. -/
def aheadOf (p : Bytes → Bool) (f : Framing) (coming : Bytes) : Nat :=
  (f.ahead coming).countP p + if (cut (f.held ++ coming)).2 = [] then 0 else 1

variable {p : Bytes → Bool} {f : Framing} {coming : Bytes}

/-- **Lines of another kind** that are written add nothing. The first of them may be the end of a
line that counts already. -/
theorem aheadOf_append_le {lines : List Bytes} (hlines : ∀ l ∈ lines, lineFeed ∉ l)
    (hp : ∀ l ∈ lines, p l = false) :
    aheadOf p f (coming ++ stream lines) ≤ aheadOf p f coming := by
  cases lines with
  | nil =>
    have hsame : coming ++ stream [] = coming := by simp
    exact Nat.le_of_eq (congrArg (aheadOf p f) hsame)
  | cons l ls =>
    have hrest := lineFeed_not_mem_cut_snd (f.held ++ coming)
    have hcut : cut (f.held ++ (coming ++ stream (l :: ls))) =
        ((cut (f.held ++ coming)).1 ++ ((cut (f.held ++ coming)).2 ++ l) :: ls, []) := by
      have hlines' : ∀ k ∈ ((cut (f.held ++ coming)).2 ++ l) :: ls, lineFeed ∉ k := by
        intro k hk
        rcases List.mem_cons.1 hk with rfl | hk
        · rw [List.mem_append, not_or]
          exact ⟨hrest, hlines l List.mem_cons_self⟩
        · exact hlines k (List.mem_cons_of_mem _ hk)
      have hstream : (cut (f.held ++ coming)).2 ++ stream (l :: ls) =
          stream (((cut (f.held ++ coming)).2 ++ l) :: ls) ++ [] := by simp
      rw [← List.append_assoc, cut_append, hstream, cut_stream hlines', cut_nil, List.append_nil]
    unfold aheadOf ahead
    rw [hcut, if_pos rfl, Nat.add_zero]
    generalize cut (f.held ++ coming) = c
    obtain ⟨as, rest⟩ := c
    have hnone : ls.countP p = 0 := by
      rw [List.countP_eq_zero]
      intro k hk
      simp [hp k (List.mem_cons_of_mem _ hk)]
    have hmore : ((rest ++ l) :: ls).countP p ≤ if rest = [] then 0 else 1 := by
      rw [List.countP_cons, hnone]
      by_cases hempty : rest = []
      · simp [hempty, hp l List.mem_cons_self]
      · rw [if_neg hempty]
        split <;> omega
    calc ((as ++ (rest ++ l) :: ls).drop f.skipped).countP p
        = (as.drop f.skipped).countP p +
            (((rest ++ l) :: ls).drop (f.skipped - as.length)).countP p := by
          rw [List.drop_append, List.countP_append]
      _ ≤ (as.drop f.skipped).countP p + ((rest ++ l) :: ls).countP p :=
          Nat.add_le_add_left (List.drop_sublist _ _).countP_le _
      _ ≤ _ := Nat.add_le_add_left hmore _

theorem framesOf_eq (limit : Nat) (f : Framing) (lines : List Bytes) :
    framesOf limit f.discarding lines = (lines.drop f.skipped).map (frameOf limit) := by
  unfold skipped
  cases f.discarding with
  | false => simp
  | true => cases lines <;> simp

/-- What lies ahead behind a chunk, by the lines and the rest that the chunk is cut into. -/
theorem aheadOf_append (p : Bytes → Bool) (f : Framing) (chunk coming : Bytes) :
    aheadOf p f (chunk ++ coming) =
      ((cut (f.held ++ chunk)).1.drop f.skipped).countP p +
        (((cut ((cut (f.held ++ chunk)).2 ++ coming)).1.drop
            (f.skipped - (cut (f.held ++ chunk)).1.length)).countP p +
          if (cut ((cut (f.held ++ chunk)).2 ++ coming)).2 = [] then 0 else 1) := by
  unfold aheadOf ahead
  rw [← List.append_assoc, cut_append (f.held ++ chunk), List.drop_append, List.countP_append,
    Nat.add_assoc]

/-- A beginning of a line that is given up takes nothing of another line with it. -/
theorem aheadOf_rest_le (p : Bytes → Bool) (coming : Bytes) {rest : Bytes} (hne : rest ≠ [])
    (hrest : lineFeed ∉ rest) {skips : Nat} (hskips : skips ≤ 1) :
    ((cut coming).1.drop 1).countP p + (if (cut coming).2 = [] then 0 else 1) ≤
      ((cut (rest ++ coming)).1.drop skips).countP p +
        if (cut (rest ++ coming)).2 = [] then 0 else 1 := by
  rw [cut_beginning_append hrest]
  generalize cut coming = d
  obtain ⟨lines, last⟩ := d
  cases lines with
  | nil =>
    have hlast : rest ++ last ≠ [] := by simp [hne]
    simp only [List.drop_nil, List.countP_nil, if_neg hlast]
    split <;> omega
  | cons l ls =>
    have hmore : ls.countP p ≤ (((rest ++ l) :: ls).drop skips).countP p := by
      obtain rfl | rfl : skips = 0 ∨ skips = 1 := by omega
      · exact (List.sublist_cons_self _ _).countP_le
      · exact Nat.le_refl _
    exact Nat.add_le_add_right hmore _

/-- **A chunk.** As many frames as are of a kind come out of the lines of that kind. -/
theorem aheadOf_push_le {q : Frame → Bool}
    (hq : ∀ limit line, q (frameOf limit line) = true → p line = true)
    (herror : ∀ e, q (.error e) = false) (chunk : Bytes) :
    (f.push chunk).1.countP q + aheadOf p (f.push chunk).2 coming ≤
      aheadOf p f (chunk ++ coming) := by
  have hrest := lineFeed_not_mem_cut_snd (f.held ++ chunk)
  have hframes (lines : List Bytes) : (framesOf f.limit f.discarding lines).countP q ≤
      (lines.drop f.skipped).countP p := by
    rw [framesOf_eq, List.countP_map]
    exact List.countP_mono_left fun l _ hl => hq f.limit l hl
  rw [aheadOf_append]
  unfold push
  generalize cut (f.held ++ chunk) = c at hrest ⊢
  obtain ⟨ls, rest⟩ := c
  have hls := hframes ls
  have hskipped : f.skipped ≤ 1 := by
    unfold skipped
    split <;> omega
  dsimp only at hrest ⊢
  by_cases hshort : rest.length ≤ f.limit
  · -- what is left of the chunk is held
    have hskips : ({ f with held := rest, discarding := f.discarding && ls.isEmpty } :
        Framing).skipped = f.skipped - ls.length := by
      unfold skipped
      cases f.discarding <;> cases ls <;> simp
    rw [if_pos hshort]
    unfold aheadOf ahead
    rw [hskips]
    exact Nat.add_le_add_right hls _
  · have hne : rest ≠ [] := by
      rintro rfl
      exact hshort (Nat.zero_le _)
    have hgiven := aheadOf_rest_le p coming hne hrest
      (Nat.le_trans (Nat.sub_le _ ls.length) hskipped)
    rw [if_neg hshort]
    split
    · next hskip =>
      rw [hskip]
      exact Nat.add_le_add hls hgiven
    · rw [List.countP_append, List.countP_singleton, herror, if_neg Bool.false_ne_true]
      exact Nat.add_le_add hls hgiven

end Observatory.Framing
