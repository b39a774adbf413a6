import Observatory.Proofs.Value.Representation
/-!
# Marks of a rectangle and of its parts

A rectangle and each of its four parts have a mark for being changed. Whatever stores cells in the
parts marks them, and the rectangle with them. What takes the mark of the rectangle off, on its own,
in a registry or in a copy, leaves those of the parts: they are never taken off.

* `Rectangle.marked_of_parse`, `Rectangle.marked_of_apply` — what stores cells marks every part.
* `Value.Passage.marked_after` — what one step makes of the marks of the parts.
* `Value.parts_marked` — what any number of steps make of them, and when the parts of a rectangle
  that is not marked are not marked either.
-/

namespace Observatory

open Record (exists_of_bind)

/-! ## Parts -/

namespace Rectangle

/-- All parts are marked, or none of them is. -/
def Marked (b : Bool) (r : Rectangle) : Prop := ∀ p ∈ r.parts, p.2.dirty = b

theorem marked_new (base : Base) : (new base).Marked false := by
  intro p hp
  simp only [parts, new, List.mem_cons, List.not_mem_nil, or_false] at hp
  rcases hp with rfl | rfl | rfl | rfl <;> rfl

theorem marked_of_parse {r s : Rectangle} {text rest : List Char}
    (h : r.parse text = .ok (s, rest)) : s.Marked true := by
  obtain ⟨x, -, h⟩ := exists_of_bind h
  obtain ⟨y, -, h⟩ := exists_of_bind h
  obtain ⟨width, -, h⟩ := exists_of_bind h
  obtain ⟨height, -, h⟩ := exists_of_bind h
  cases h
  intro p hp
  simp only [parts, List.mem_cons, List.not_mem_nil, or_false] at hp
  rcases hp with rfl | rfl | rfl | rfl <;> rfl

theorem dirty_of_applyPart {op : Operator} {part operand p : Part}
    (h : applyPart op part operand = .ok p) : p.dirty = true := by
  obtain ⟨cell, -, h⟩ := exists_of_bind h
  cases h
  rfl

theorem marked_of_apply {op : Operator} {r operand s : Rectangle}
    (h : r.apply op operand = .ok s) : s.Marked true := by
  obtain ⟨x, hx, h⟩ := exists_of_bind h
  obtain ⟨y, hy, h⟩ := exists_of_bind h
  obtain ⟨width, hwidth, h⟩ := exists_of_bind h
  obtain ⟨height, hheight, h⟩ := exists_of_bind h
  cases h
  intro p hp
  simp only [parts, List.mem_cons, List.not_mem_nil, or_false] at hp
  rcases hp with rfl | rfl | rfl | rfl
  · exact dirty_of_applyPart hx
  · exact dirty_of_applyPart hy
  · exact dirty_of_applyPart hwidth
  · exact dirty_of_applyPart hheight

end Rectangle

/-! ## Contents -/

namespace Contents

/-- A rectangle of which all parts are marked, or none is. -/
def PartsMarked (b : Bool) (c : Contents) : Prop := ∃ r, c = rectangle r ∧ r.Marked b

theorem partsMarked_of_parse {r : Rectangle} {c : Contents} {text : List Char}
    (h : (rectangle r).parse text = .ok c) : c.PartsMarked true := by
  obtain ⟨⟨s, rest⟩, hs, h⟩ := exists_of_bind h
  obtain ⟨-, -, h⟩ := exists_of_bind h
  cases h
  exact ⟨s, rfl, Rectangle.marked_of_parse hs⟩

theorem partsMarked_of_apply {op : Operator} {r : Rectangle} {operand c : Contents}
    (h : (rectangle r).apply op operand = .ok c) : c.PartsMarked true := by
  cases operand with
  | rectangle o =>
    obtain ⟨s, hs, rfl⟩ := exists_of_map h
    exact ⟨s, rfl, Rectangle.marked_of_apply hs⟩
  | _ => cases h

end Contents

/-! ## Values -/

namespace Value

section

variable {v w : Value} {r : Rectangle}

theorem partsMarked_of_set {text : String} (hv : v.contents = .rectangle r)
    (h : v.set text = .ok w) : w.contents.PartsMarked true := by
  obtain ⟨c, hc, rfl⟩ := exists_of_map h
  rw [hv] at hc
  exact Contents.partsMarked_of_parse hc

theorem partsMarked_of_apply {op : Operator} {operand : Contents} (hv : v.contents = .rectangle r)
    (h : v.apply op operand = .ok w) : w.contents.PartsMarked true := by
  obtain ⟨c, hc, rfl⟩ := exists_of_map h
  rw [hv] at hc
  exact Contents.partsMarked_of_apply hc

/-- **A call that is carried out** marks every part of a rectangle. -/
theorem Call.partsMarked_of_attempt {call : Call} (hv : v.contents = .rectangle r)
    (h : call.mutation.attempt v = .ok w) : w.contents.PartsMarked true := by
  cases call with
  | set text =>
    simp only [mutation, Mutation.attempt] at h
    split at h
    · next hset =>
      cases h
      exact partsMarked_of_set hv hset
    · cases h
  | applyText op text =>
    simp only [mutation, Mutation.attempt, Value.applyText] at h
    split at h
    · split at h
      · next hset =>
        cases h
        exact partsMarked_of_set hv hset
      · cases h
    · split at h
      · exact partsMarked_of_apply hv h
      · cases h
  | select symbol =>
    simp only [mutation, Mutation.attempt, Value.select, hv] at h
    cases h
  | setItems indices text =>
    simp only [mutation, Mutation.attempt, Value.setItems, hv] at h
    cases h
  | push item =>
    simp only [mutation, Mutation.attempt, Value.push, hv] at h
    cases h
  | _ => exact partsMarked_of_apply hv h

end

/-! ## What a value goes through -/

/-- A value as it is when nothing has happened to it: created of a kind, or announced by a peer. -/
inductive Fresh : Value → Prop
  | created (name description : String) (flags : Flags) (kind : Kind) :
    Fresh (create name description flags (.blank kind))
  | announced {word : UInt32} {name description : String} {r : Replica}
    (h : Replica.announce word name description = .ok r) : Fresh r.value

/-- One step on the way of a value. -/
inductive Passage where
  | deed (d : Deed)
  /-- It is filed in a registry, where its name has to be new. -/
  | file (r : Registry)
  /-- The registry in which it stands between others forgets which values changed. -/
  | sweep (before behind : List Value)
  /-- It is the copy of a value of a peer, and a pushed text is taken over. -/
  | receive (text : String)

namespace Passage

/-- The value after a step. -/
def after : Passage → Value → Value
  | deed d, v => d.after v
  | file r, v => match r.create v with
    | .ok s => (s.get? v.name).getD v
    | .error _ => v
  | sweep before behind, v =>
    ((Registry.mk (before ++ v :: behind)).clearDirty.values[before.length]?).getD v
  | receive text, v => (Replica.receiveInPlace text ⟨v⟩).2.value

/-- Whether a step stores new contents: it is a call, or a push, that is not refused. -/
def stores : Passage → Value → Bool
  | deed (.call call), v => (call.steps v).1.isOk
  | receive text, v => (Replica.receiveInPlace text ⟨v⟩).1.isOk
  | _, _ => false

/-- A value is filed as it is, with a mark. -/
theorem after_file (r : Registry) (v : Value) :
    (file r).after v = v.markDirty ∨ (file r).after v = v := by
  simp only [after, Registry.create]
  by_cases hname : r.contains v.name = true
  · rw [if_pos hname]
    exact .inr rfl
  · rw [if_neg hname]
    have hnone : r.values.find? (fun w => w.name == v.name) = none := by
      simpa [Registry.contains, Registry.get?] using hname
    left
    simp [Registry.get?, List.find?_append, hnone, markDirty]

/-- Among others or not, a value loses its mark in a sweep. -/
theorem after_sweep (before behind : List Value) (v : Value) :
    (sweep before behind).after v = v.clearDirty := by
  simp [after, Registry.clearDirty]

/-- **One step** on the way of a rectangle: what stores marks all parts, and nothing else touches
their marks. -/
theorem marked_after {b : Bool} {v : Value} (hv : v.contents.PartsMarked b) (p : Passage) :
    (p.after v).contents.PartsMarked (b || p.stores v) := by
  obtain ⟨r, hr, hmarked⟩ := hv
  have hsame : v.contents.PartsMarked (b || false) := by
    rw [Bool.or_false]
    exact ⟨r, hr, hmarked⟩
  cases p with
  | deed d =>
    cases d with
    | call call =>
      have hsettles := call.settles_steps v
      cases hattempt : call.mutation.attempt v with
      | ok w =>
        rw [hattempt] at hsettles
        have hsteps : call.steps v = (.ok (), w) := hsettles
        simp only [after, Deed.after, stores, hsteps, Except.isOk, Except.toBool, Bool.or_true]
        exact Call.partsMarked_of_attempt hr hattempt
      | error e =>
        rw [hattempt] at hsettles
        have hsteps : call.steps v = (.error e, v) := hsettles
        simp only [after, Deed.after, stores, hsteps, Except.isOk, Except.toBool]
        exact hsame
    | markDirty => exact hsame
    | clearDirty => exact hsame
  | file registry =>
    rcases after_file registry v with h | h
    · rw [h]
      exact hsame
    · rw [h]
      exact hsame
  | sweep before behind =>
    rw [after_sweep]
    exact hsame
  | receive text =>
    have hsettles := Replica.settles_receiveInPlace text ⟨v⟩
    cases hreceive : Replica.receive text ⟨v⟩ with
    | ok copy =>
      rw [hreceive] at hsettles
      have hsteps : Replica.receiveInPlace text ⟨v⟩ = (.ok (), copy) := hsettles
      simp only [after, stores, hsteps, Except.isOk, Except.toBool, Bool.or_true]
      obtain ⟨w, hset, hcopy⟩ := exists_of_bind hreceive
      cases hcopy
      have hmarked : w.contents.PartsMarked true := partsMarked_of_set hr hset
      exact hmarked
    | error e =>
      rw [hreceive] at hsettles
      have hsteps : Replica.receiveInPlace text ⟨v⟩ = (.error e, ⟨v⟩) := hsettles
      simp only [after, stores, hsteps, Except.isOk, Except.toBool]
      exact hsame

end Passage

/-- The value at the end of a way. -/
def afterWay (way : List Passage) (v : Value) : Value := way.foldl (fun v p => p.after v) v

/-- Whether a step on the way stored new contents. -/
def touched : List Passage → Value → Bool
  | [], _ => false
  | p :: way, v => p.stores v || touched way (p.after v)

/-- **A whole way** leaves all parts marked if a step stored something, and none otherwise. -/
theorem marked_afterWay {b : Bool} {v : Value} (hv : v.contents.PartsMarked b)
    (way : List Passage) : (v.afterWay way).contents.PartsMarked (b || touched way v) := by
  induction way generalizing b v with
  | nil =>
    rw [touched, Bool.or_false]
    exact hv
  | cons p way ih =>
    rw [touched, ← Bool.or_assoc]
    exact ih (Passage.marked_after hv p)

/-- A new rectangle has no marked part, whoever made it. -/
theorem Fresh.partsMarked {v : Value} {base : Base} (hv : v.Fresh)
    (hkind : v.kind = .rectangle base) : v.contents.PartsMarked false := by
  obtain ⟨kind, hcontents⟩ : ∃ kind, v.contents = .default kind := by
    cases hv with
    | created name description flags kind => exact ⟨kind, rfl⟩
    | announced h =>
      obtain ⟨kind, -, h⟩ := exists_of_bind h
      cases h
      exact ⟨kind, rfl⟩
  rw [hcontents]
  rw [Value.kind, hcontents] at hkind
  cases kind with
  | rectangle base => exact ⟨.new base, rfl, Rectangle.marked_new base⟩
  | _ => cases hkind

theorem parts_of_partsMarked {b : Bool} {v : Value} (h : v.contents.PartsMarked b) :
    v.parts.length = 4 ∧ ∀ part ∈ v.parts, part.dirty = b := by
  obtain ⟨r, hr, hmarked⟩ := h
  have hparts : v.parts = (Children.ofParts v r).toList := (Children.toList_ofParts hr).symm
  rw [hparts]
  refine ⟨rfl, ?_⟩
  intro part hpart
  simp only [Children.ofParts, Children.toList, List.mem_cons, List.not_mem_nil, or_false] at hpart
  rcases hpart with rfl | rfl | rfl | rfl
  · exact hmarked ("X", r.x) (by simp [Rectangle.parts])
  · exact hmarked ("Y", r.y) (by simp [Rectangle.parts])
  · exact hmarked ("WIDTH", r.width) (by simp [Rectangle.parts])
  · exact hmarked ("HEIGHT", r.height) (by simp [Rectangle.parts])

/-- **The marks of the parts** of a rectangle say whether anything was ever stored in it, on any way
of operations, registries, sweeps and pushed texts. So the parts of a rectangle without a mark are
without marks as well exactly when nothing was ever stored in it, or it has a mark. -/
theorem parts_marked {v : Value} {base : Base} (hv : v.Fresh) (hkind : v.kind = .rectangle base)
    (way : List Passage) :
    let w := v.afterWay way
    w.parts.length = 4 ∧
      (∀ part ∈ w.parts, part.dirty = touched way v) ∧
      ((w.dirty = false → ∀ part ∈ w.parts, part.dirty = false) ↔
        touched way v = false ∨ w.dirty = true) := by
  intro w
  have hmarked := marked_afterWay (hv.partsMarked hkind) way
  rw [Bool.false_or] at hmarked
  obtain ⟨hlength, hparts⟩ := parts_of_partsMarked hmarked
  refine ⟨hlength, hparts, ?_⟩
  constructor
  · intro hclean
    by_cases hdirty : w.dirty = true
    · exact .inr hdirty
    · left
      obtain ⟨part, hpart⟩ := List.exists_mem_of_length_pos (show 0 < w.parts.length by
        rw [hlength]
        decide)
      rw [← hparts part hpart]
      exact hclean (by simpa using hdirty) part hpart
  · intro h hclean part hpart
    rcases h with huntouched | hdirty
    · rw [hparts part hpart, huntouched]
    · rw [hclean] at hdirty
      cases hdirty

/-- The window of a camera is filed, set and published, and a text with two numbers is refused. -/
theorem parts_marked_of_window :
    let window := create "WINDOW" "part of the chip" {} (.blank (.rectangle .integer))
    let way : List Passage := [.file ⟨[]⟩, .deed (.call (.set "0 0 1024 768")), .sweep [] [],
      .deed (.call (.set "0 0"))]
    window.kind = .rectangle .integer ∧ touched way window = true ∧
      (window.afterWay way).parts.length = 4 ∧
      ∀ part ∈ (window.afterWay way).parts, part.dirty = true := by
  intro window way
  have hkind : window.kind = .rectangle .integer := rfl
  have htouched : touched way window = true := by decide +kernel
  obtain ⟨hlength, hparts, -⟩ := parts_marked (.created _ _ _ _) hkind way
  rw [htouched] at hparts
  exact ⟨hkind, htouched, hlength, hparts⟩

/-- Once its mark is off, the window that was set is not marked, and its parts are. -/
theorem parts_marked_after_clear :
    let w := (create "WINDOW" "" {} (.blank (.rectangle .integer))).afterWay
      [.deed (.call (.set "0 0 1024 768")), .deed .clearDirty]
    w.dirty = false ∧ w.parts.map (·.dirty) = [true, true, true, true] := by
  decide +kernel

end Value

end Observatory
