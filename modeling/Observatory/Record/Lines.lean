import Observatory.Record.Framing
/-!
# Lines drawn one at a time

A reader keeps the bytes that have arrived and gives one line after another, until none of those
that it keeps is complete. A chunk is taken by adding it to what is kept and drawing lines until
there is none.
-/

namespace Observatory.Framing

/-- The bytes in front of the first line feed, and those behind it. -/
def breakLine : Bytes → Option (Bytes × Bytes)
  | [] => none
  | b :: bs =>
    if b = lineFeed then some ([], bs)
    else (breakLine bs).map fun (line, rest) => (b :: line, rest)

theorem length_of_breakLine {bytes line rest : Bytes} (h : breakLine bytes = some (line, rest)) :
    rest.length < bytes.length := by
  induction bytes generalizing line with
  | nil => cases h
  | cons b bs ih =>
    unfold breakLine at h
    split at h
    · cases h
      exact Nat.lt_succ_self _
    · obtain ⟨⟨front, behind⟩, hbs, heq⟩ := Option.map_eq_some_iff.1 h
      cases heq
      exact Nat.lt_succ_of_lt (ih hbs)

/-- The next line that is complete. What has outgrown the limit without an end is dropped, and
reported if it was not before; the end of a line that was reported is passed over. -/
def nextLine (f : Framing) : Option Frame × Framing :=
  match breakLine f.held with
  | none =>
    if f.limit < f.held.length then
      if f.discarding then (none, { f with held := [] })
      else (some (.error (.tooLong f.limit)), { f with held := [], discarding := true })
    else (none, f)
  | some (line, rest) =>
    if f.discarding then nextLine { f with held := rest, discarding := false }
    else (some (frameOf f.limit line), { f with held := rest })
termination_by f.discarding.toNat
decreasing_by simp_all

/-- A line that is given is taken off what is kept. -/
theorem length_of_nextLine {f g : Framing} {frame : Frame} (h : f.nextLine = (some frame, g)) :
    g.held.length < f.held.length := by
  fun_induction nextLine f with
  | case1 f hnone hlong hskip => cases h
  | case2 f hnone hlong hskip =>
    cases h
    exact Nat.lt_of_le_of_lt (Nat.zero_le _) hlong
  | case3 f hnone hlong => cases h
  | case4 f line rest hsome hskip ih => exact Nat.lt_trans (ih h) (length_of_breakLine hsome)
  | case5 f line rest hsome hskip =>
    cases h
    exact length_of_breakLine hsome

/-- Draws lines until there is none. -/
def drain (f : Framing) : List Frame × Framing :=
  match h : f.nextLine with
  | (none, left) => ([], left)
  | (some frame, left) =>
    have : left.held.length < f.held.length := length_of_nextLine h
    let (frames, last) := left.drain
    (frame :: frames, last)
termination_by f.held.length

/-- Takes chunks, one after the other. After each of them lines are drawn until there is none. -/
def drawn (f : Framing) : List Bytes → List Frame × Framing
  | [] => ([], f)
  | chunk :: chunks =>
    let (frames, left) := drain { f with held := f.held ++ chunk }
    let (later, last) := drawn left chunks
    (frames ++ later, last)

end Observatory.Framing
