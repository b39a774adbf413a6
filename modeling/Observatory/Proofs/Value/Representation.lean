import Observatory.Proofs.Value.AllOrNothing
import Observatory.Proofs.Value.Attained
import Observatory.Value.Children
/-!
# What no operation touches

A value is what it was created as for good: whatever is done to it, by texts or by other values,
and whether it is refused or not, its name, its description, its flags, its kind and its symbols
stay, the items of a series and the children of a rectangle are of the base type they were made
with, and a bounded double lies in its range.

* `Value.Deed.keeps_profile`, `Contents.Regular.after` — what one operation keeps.
* `Children.matched_attempt` — the children of a rectangle, which are values of their own, go with
  its parts.
* `Value.representation_kept` — what any number of operations keep.
-/

namespace Observatory

/-! ## Creation -/

/-- What a value is created from. -/
inductive Creation where
  /-- From nothing but its kind: empty, zero or no number at all. -/
  | blank (kind : Kind)
  /-- From the one cell that it holds. -/
  | single (cell : Scalar)
  | choice (symbols : List String)
  | ranged (value min max : Float)

namespace Creation

/-- What a new value holds. -/
def contents : Creation → Contents
  | blank kind => .default kind
  | single cell => .scalar cell
  | choice symbols => .selection { symbols }
  | ranged value min max => .bounded ⟨value, min, max⟩

def kind : Creation → Kind
  | blank kind => kind
  | single cell => .scalar cell.base
  | choice _ => .selection
  | ranged _ _ _ => .bounded

def symbols : Creation → List String
  | choice symbols => symbols
  | _ => []

/-- A bounded double starts in its range. -/
def IsInRange : Creation → Prop
  | ranged value min max => (Bounded.mk value min max).contains value = true
  | _ => True

theorem kind_contents (c : Creation) : c.contents.kind = c.kind := by
  cases c with
  | blank kind =>
    cases kind with
    | scalar base => exact congrArg Kind.scalar (Scalar.base_default base)
    | _ => rfl
  | _ => rfl

theorem symbols_contents (c : Creation) : c.contents.symbols = c.symbols := by
  cases c with
  | blank kind => cases kind <;> rfl
  | _ => rfl

/-- A rectangle is created from nothing but its kind. -/
theorem eq_blank_of_rectangle {c : Creation} {base : Base} (h : c.kind = .rectangle base) :
    c = blank (.rectangle base) := by
  cases c with
  | blank kind => exact congrArg blank h
  | _ => cases h

end Creation

/-- A new value. -/
def Value.create (name description : String) (flags : Flags) (c : Creation) : Value :=
  { name, description, flags, contents := c.contents }

/-! ## Operations -/

namespace Value

/-- One operation on a value: a call, which may be refused, or a mark that is set or taken off. -/
inductive Deed where
  | call (call : Call)
  | markDirty
  | clearDirty

namespace Deed

/-- The value after an operation. -/
def after : Deed → Value → Value
  | call c, v => (c.steps v).2
  | markDirty, v => v.markDirty
  | clearDirty, v => v.clearDirty

/-- What another value holds that an operation makes use of. -/
def operand? : Deed → Option Contents
  | call (.apply _ operand) => some operand
  | call (.setFrom other) => some other
  | _ => none

end Deed

/-- The value after operations, one after the other. -/
def afterAll (deeds : List Deed) (v : Value) : Value := deeds.foldl (fun v d => d.after v) v

/-- A call that is refused leaves the value as it was. -/
theorem Call.after_eq (call : Call) (v : Value) : (call.steps v).2 =
    match call.mutation.attempt v with
    | .ok w => w
    | .error _ => v := by
  have h := call.settles_steps v
  cases hattempt : call.mutation.attempt v with
  | ok w =>
    rw [hattempt] at h
    rw [show call.steps v = _ from h]
  | error e =>
    rw [hattempt] at h
    rw [show call.steps v = _ from h]

/-- An operand is what another value holds, or a single cell. -/
theorem Call.operand_of_mutation {call : Call} {op : Operator} {operand : Contents}
    (h : call.mutation = .apply op operand) :
    operand ∈ (Deed.call call).operand? ∨ ∃ cell, operand = .scalar cell := by
  cases call with
  | apply op' operand' =>
    cases h
    exact .inl rfl
  | setFrom other =>
    cases h
    exact .inl rfl
  | set text => cases h
  | applyText op' text => cases h
  | select symbol => cases h
  | setItems indices text => cases h
  | push item => cases h
  | _ =>
    cases h
    exact .inr ⟨_, rfl⟩

/-- **One operation** keeps all that the value is announced as. -/
theorem Deed.keeps_profile (d : Deed) (v : Value) : (d.after v).profile = v.profile := by
  cases d with
  | call call =>
    rw [after, Call.after_eq]
    split
    · next w hattempt => exact (Mutation.becomes_of_attempt hattempt).1.profile
    · rfl
  | markDirty => rfl
  | clearDirty => rfl

theorem profile_afterAll (deeds : List Deed) (v : Value) :
    (v.afterAll deeds).profile = v.profile := by
  induction deeds generalizing v with
  | nil => rfl
  | cons d ds ih => exact (ih (d.after v)).trans (d.keeps_profile v)

theorem profile_create (name description : String) (flags : Flags) (c : Creation) :
    (create name description flags c).profile =
      ⟨name, description, flags, c.kind, c.symbols⟩ := by
  rw [profile, kind, create, c.kind_contents, c.symbols_contents]

end Value

/-! ## Cells of the right type, numbers in their range -/

namespace Contents

/-- What values can hold: what they were created from, after operations with what values can
hold. -/
inductive Reached : Contents → Prop
  | created {c : Creation} (h : c.IsInRange) : Reached c.contents
  | changed {d : Value.Deed} {v : Value} (hv : Reached v.contents)
      (hd : ∀ operand ∈ d.operand?, Reached operand) : Reached (d.after v).contents

theorem regular_scalar (cell : Scalar) : (scalar cell).Regular := ⟨trivial, trivial⟩

/-- **One operation** keeps contents regular, if its operand is. -/
theorem Regular.after {d : Value.Deed} {v : Value} (hv : v.contents.Regular)
    (hd : ∀ operand ∈ d.operand?, operand.Regular) : (d.after v).contents.Regular := by
  cases d with
  | call call =>
    rw [Value.Deed.after, Value.Call.after_eq]
    split
    · next w hattempt =>
      refine hv.of_attempt (fun op operand heq => ?_) hattempt
      -- what is not given by another value is the one cell of a typed assignment
      rcases Value.Call.operand_of_mutation heq with hgiven | ⟨cell, rfl⟩
      · exact hd operand hgiven
      · exact regular_scalar cell
    · exact hv
  | markDirty => exact hv
  | clearDirty => exact hv

theorem regular_created {c : Creation} (h : c.IsInRange) : c.contents.Regular := by
  cases c with
  | blank kind =>
    cases kind with
    | rectangle base => exact ⟨Rectangle.proper_new base, trivial⟩
    | series base => exact ⟨nofun, trivial⟩
    | bounded => exact ⟨trivial, rfl⟩
    | _ => exact ⟨trivial, trivial⟩
  | ranged value min max => exact ⟨trivial, h⟩
  | _ => exact ⟨trivial, trivial⟩

theorem Regular.rectangle {c : Contents} {r : Rectangle} (h : c.Regular) (hc : c = .rectangle r) :
    r.Proper := by
  subst hc
  exact h.proper

/-- **What values can hold** is regular. -/
theorem Reached.regular {c : Contents} (h : Reached c) : c.Regular := by
  induction h with
  | created h => exact regular_created h
  | changed _ _ ihv ihd => exact ihv.after ihd

end Contents

theorem Value.regular_afterAll {v : Value} (hv : v.contents.Regular) {deeds : List Deed}
    (hdeeds : ∀ d ∈ deeds, ∀ operand ∈ d.operand?, operand.Reached) :
    (v.afterAll deeds).contents.Regular := by
  induction deeds generalizing v with
  | nil => exact hv
  | cons d ds ih =>
    rw [List.forall_mem_cons] at hdeeds
    exact ih (hv.after fun operand h => (hdeeds.1 operand h).regular) hdeeds.2

/-! ## Children -/

namespace Children

/-- The children of a rectangle after an operation. Marks of the rectangle are none of theirs. -/
def after (d : Value.Deed) (c : Children) : Children :=
  match d with
  | .call call => match c.attempt call with
    | .ok changed => changed
    | .error _ => c
  | _ => c

/-- The children that the parts of a rectangle stand for. -/
def ofParts (v : Value) (r : Rectangle) : Children :=
  let child (suffix : String) (part : Part) : Value :=
    { name := v.name ++ "." ++ suffix
      description := v.description ++ " " ++ suffix
      flags := v.flags
      dirty := part.dirty
      contents := .scalar part.cell }
  ⟨child "X" r.x, child "Y" r.y, child "WIDTH" r.width, child "HEIGHT" r.height⟩

/-- The parts of a rectangle once four cells are stored in them. -/
def held (base : Base) (cells : Cells) : Rectangle :=
  ⟨base, ⟨cells.x, true⟩, ⟨cells.y, true⟩, ⟨cells.width, true⟩, ⟨cells.height, true⟩⟩

theorem toList_ofParts {v : Value} {r : Rectangle} (h : v.contents = .rectangle r) :
    (ofParts v r).toList = v.parts := by
  rw [Value.parts, h]
  rfl

/-- What becomes of a rectangle goes with what becomes of its children. -/
inductive Matched (v : Value) :
    Except OperationError Value → Except OperationError Children → Prop
  | changed (r : Rectangle) : Matched v (.ok (v.withContents (.rectangle r))) (.ok (ofParts v r))
  | refused (e : OperationError) : Matched v (.error e) (.error e)

section
variable {v : Value} {r : Rectangle}

theorem base_ofParts (hproper : r.Proper) : (ofParts v r).base = r.base :=
  hproper ("X", r.x) List.mem_cons_self

theorem assign_ofParts (cells : Cells) :
    (ofParts v r).assign cells = ofParts v (held r.base cells) := rfl

/-- A text is read for the children as it is read for the parts. -/
theorem parse_ofParts (hproper : r.Proper) (text : List Char) : (Contents.rectangle r).parse text =
    (fun cells => .rectangle (held r.base cells)) <$> (ofParts v r).read text := by
  have hread : (ofParts v r).read text = (do
      let x ← Scalar.parse r.base text
      let y ← Scalar.parse r.base x.2
      let width ← Scalar.parse r.base y.2
      let height ← Scalar.parse r.base width.2
      Token.finish height.2
      return ⟨x.1, y.1, width.1, height.1⟩) := by
    unfold read
    rw [base_ofParts hproper]
  have hparse : (Contents.rectangle r).parse text = ((do
      let x ← Scalar.parse r.base text
      let y ← Scalar.parse r.base x.2
      let width ← Scalar.parse r.base y.2
      let height ← Scalar.parse r.base width.2
      return (held r.base ⟨x.1, y.1, width.1, height.1⟩, height.2)) >>= fun p => do
        Token.finish p.2
        return .rectangle p.1) := rfl
  -- the same four readings on both sides; only the order of storing and finishing differs
  rw [hread, hparse]
  simp only [bind_assoc, pure_bind, map_bind, map_pure]

/-- An operator makes of the children what it makes of the parts. -/
theorem apply_ofParts (op : Operator) (operand : Rectangle) :
    (ofParts v r).apply op operand.cells = ofParts v <$> r.apply op operand := by
  have hchildren : (ofParts v r).apply op operand.cells = (do
      let x ← (ofParts v r).x.withContents <$> Contents.scalar <$> r.x.cell.apply op operand.x.cell
      let y ← (ofParts v r).y.withContents <$> Contents.scalar <$> r.y.cell.apply op operand.y.cell
      let width ← (ofParts v r).width.withContents <$> Contents.scalar <$>
        r.width.cell.apply op operand.width.cell
      let height ← (ofParts v r).height.withContents <$> Contents.scalar <$>
        r.height.cell.apply op operand.height.cell
      return ⟨x, y, width, height⟩) := rfl
  rw [hchildren]
  unfold Rectangle.apply Rectangle.applyPart
  simp only [bind_assoc, pure_bind, map_eq_pure_bind]
  rfl

theorem matched_combine (hv : v.contents = .rectangle r) (op : Operator) (operand : Contents) :
    Matched v (v.apply op operand) ((ofParts v r).combine op operand) := by
  rw [Value.apply, hv]
  cases operand with
  | rectangle o =>
    show Matched v (v.withContents <$> Contents.rectangle <$> r.apply op o)
      ((ofParts v r).apply op o.cells)
    rw [apply_ofParts]
    cases r.apply op o with
    | ok s => exact .changed s
    | error e => exact .refused e
  | _ => exact .refused _

theorem matched_set (hv : v.contents = .rectangle r) (hproper : r.Proper) (text : String) :
    Matched v (Mutation.attempt (.set text) v)
      ((ofParts v r).assign <$> ((ofParts v r).read text.toList).mapError .parse) := by
  rw [Mutation.attempt, Value.set, hv, parse_ofParts hproper]
  cases (ofParts v r).read text.toList with
  | ok cells =>
    show Matched v _ (.ok ((ofParts v r).assign cells))
    rw [assign_ofParts]
    exact .changed (held r.base cells)
  | error e => exact .refused _

theorem matched_applyText (hv : v.contents = .rectangle r) (hproper : r.Proper) (op : Operator)
    (text : String) :
    Matched v (v.applyText op text) ((ofParts v r).attempt (.applyText op text)) := by
  by_cases hop : op = .assign
  · subst hop
    have hset := matched_set hv hproper text
    rw [Mutation.attempt] at hset
    unfold Value.applyText
    rw [attempt, if_pos rfl]
    cases hread : (ofParts v r).read text.toList with
    | ok cells => rw [hread] at hset; exact hset
    | error e => rw [hread] at hset; exact hset
  · -- the operand of a rectangle is read as another rectangle of its base type
    unfold Value.applyText
    have hshape : Value.operandShape (.rectangle r) = .rectangle r := rfl
    rw [attempt, if_neg hop, hv, hshape, parse_ofParts hproper]
    cases (ofParts v r).read text.toList with
    | error e => exact .refused _
    | ok cells =>
      show Matched v (v.apply op (.rectangle (held r.base cells)))
        (if op = .assign then _ else (ofParts v r).apply op cells)
      rw [if_neg hop]
      exact matched_combine hv op (.rectangle (held r.base cells))

/-- **A call** on a rectangle makes of its children what it makes of its parts, or refuses both
for the same reason. -/
theorem matched_attempt (hv : v.contents = .rectangle r) (hproper : r.Proper) (call : Value.Call) :
    Matched v (call.mutation.attempt v) ((ofParts v r).attempt call) := by
  cases call with
  | set text => exact matched_set hv hproper text
  | applyText op text => exact matched_applyText hv hproper op text
  | select symbol =>
    show Matched v (v.select symbol) _
    rw [Value.select, hv]
    exact .refused _
  | setItems indices text =>
    show Matched v (v.setItems indices text) _
    rw [Value.setItems, hv]
    exact .refused _
  | push item =>
    show Matched v (v.push item) _
    rw [Value.push, hv]
    exact .refused _
  | _ => exact matched_combine hv _ _

/-- **One operation** leaves children that the parts stand for. -/
theorem after_ofParts (hv : v.contents = .rectangle r) (hproper : r.Proper) (d : Value.Deed) :
    ∃ s, (d.after v).contents = .rectangle s ∧
      (ofParts v r).after d = ofParts (d.after v) s := by
  cases d with
  | call call =>
    have hmatched := matched_attempt hv hproper call
    rw [Value.Deed.after, Value.Call.after_eq, after]
    generalize call.mutation.attempt v = result at hmatched ⊢
    generalize (ofParts v r).attempt call = changed at hmatched ⊢
    cases hmatched with
    | changed s => exact ⟨s, rfl, rfl⟩
    | refused e => exact ⟨r, hv, rfl⟩
  | markDirty => exact ⟨r, hv, rfl⟩
  | clearDirty => exact ⟨r, hv, rfl⟩

end

/-- The children of a rectangle after operations on it, one after the other. -/
def afterAll (deeds : List Value.Deed) (c : Children) : Children :=
  deeds.foldl (fun c d => c.after d) c

/-- **Any number of operations** leave children that the parts stand for. -/
theorem afterAll_ofParts {v : Value} {r : Rectangle} (hv : v.contents = .rectangle r)
    (hregular : v.contents.Regular) {deeds : List Value.Deed}
    (hdeeds : ∀ d ∈ deeds, ∀ operand ∈ d.operand?, operand.Reached) :
    ∃ s, (v.afterAll deeds).contents = .rectangle s ∧
      (ofParts v r).afterAll deeds = ofParts (v.afterAll deeds) s := by
  induction deeds generalizing v r with
  | nil => exact ⟨r, hv, rfl⟩
  | cons d ds ih =>
    rw [List.forall_mem_cons] at hdeeds
    obtain ⟨s, hs, hchildren⟩ := after_ofParts hv (hregular.rectangle hv) d
    have hafter := hregular.after fun operand h => (hdeeds.1 operand h).regular
    obtain ⟨t, ht, hall⟩ := ih hs hafter hdeeds.2
    exact ⟨t, ht, (congrArg (afterAll ds) hchildren).trans hall⟩

/-- New children are those that the parts of a new rectangle stand for. -/
theorem new_eq_ofParts (name description : String) (flags : Flags) (base : Base) :
    (new name description base).withFlags flags =
      ofParts (.create name description flags (.blank (.rectangle base))) (.new base) := rfl

theorem map_name_ofParts (v : Value) (r : Rectangle) : (ofParts v r).toList.map Value.name =
    ["X", "Y", "WIDTH", "HEIGHT"].map fun suffix => v.name ++ "." ++ suffix := rfl

theorem mem_ofParts {v w : Value} {r : Rectangle} (hproper : r.Proper)
    (h : w ∈ (ofParts v r).toList) : w.kind = .scalar r.base ∧ w.flags = v.flags := by
  simp only [Rectangle.Proper, Rectangle.parts, List.forall_mem_cons] at hproper
  obtain ⟨hx, hy, hwidth, hheight, -⟩ := hproper
  simp only [toList, List.mem_cons, List.not_mem_nil, or_false] at h
  rcases h with rfl | rfl | rfl | rfl
  · exact ⟨congrArg Kind.scalar hx, rfl⟩
  · exact ⟨congrArg Kind.scalar hy, rfl⟩
  · exact ⟨congrArg Kind.scalar hwidth, rfl⟩
  · exact ⟨congrArg Kind.scalar hheight, rfl⟩

end Children

/-! ## What stays -/

namespace Value

/-- **The representation of a value** outlives whatever is done to it. After any number of
operations, refused ones among them, with operands that came about in the same way, the name, the
description, the flags, the kind and the symbols are those that the value was created with; the
items of a series are of its base type; a bounded double lies in its range; and the children that
a rectangle stores are its parts, four cells of the base type that it was created with, named
after it and with its flags. -/
theorem representation_kept {c : Creation} (hc : c.IsInRange) (name description : String)
    (flags : Flags) {deeds : List Deed}
    (hdeeds : ∀ d ∈ deeds, ∀ operand ∈ d.operand?, operand.Reached) :
    let v := (create name description flags c).afterAll deeds
    v.name = name ∧ v.description = description ∧ v.flags = flags ∧ v.kind = c.kind ∧
      v.contents.symbols = c.symbols ∧
      (∀ s, v.contents = .series s → ∀ item ∈ s.items, item.base = s.base) ∧
      (∀ b, v.contents = .bounded b → b.contains b.value = true) ∧
      ∀ base, c.kind = .rectangle base →
        let children := ((Children.new name description base).withFlags flags).afterAll deeds
        children.toList = v.parts ∧
          children.toList.map Value.name =
            ["X", "Y", "WIDTH", "HEIGHT"].map (fun suffix => name ++ "." ++ suffix) ∧
          ∀ child ∈ children.toList, child.kind = .scalar base ∧ child.flags = flags := by
  intro v
  have hprofile : v.profile = ⟨name, description, flags, c.kind, c.symbols⟩ :=
    (profile_afterAll deeds _).trans (profile_create name description flags c)
  have hregular : v.contents.Regular :=
    regular_afterAll (Contents.regular_created hc) hdeeds
  have hname : v.name = name := congrArg Profile.name hprofile
  have hflags : v.flags = flags := congrArg Profile.flags hprofile
  have hkind : v.kind = c.kind := congrArg Profile.kind hprofile
  refine ⟨hname, congrArg Profile.description hprofile, hflags, hkind,
    congrArg Profile.symbols hprofile, ?_, ?_, ?_⟩
  · intro s hs
    have hproper := hregular.proper
    rw [hs] at hproper
    exact hproper
  · intro b hb
    have hin := hregular.inBounds
    rw [hb] at hin
    exact hin
  · intro base hrectangle
    obtain rfl := Creation.eq_blank_of_rectangle hrectangle
    obtain ⟨r, hr, hchildren⟩ := Children.afterAll_ofParts
      (v := create name description flags (.blank (.rectangle base))) rfl
      (Contents.regular_created hc) hdeeds
    have hbase : r.base = base := by
      rw [kind, hr] at hkind
      exact Kind.rectangle.inj hkind
    rw [Children.new_eq_ofParts, hchildren]
    refine ⟨Children.toList_ofParts hr, ?_, fun child hchild => ?_⟩
    · rw [Children.map_name_ofParts, hname]
    · obtain ⟨hchildkind, hchildflags⟩ := Children.mem_ofParts (hregular.rectangle hr) hchild
      exact ⟨by rw [hchildkind, hbase], hchildflags.trans hflags⟩

/-- Whole numbers are shifted by doubles, and a number and a symbol are refused. -/
theorem representation_kept_of_window :
    let shift := (Deed.call (.set "8 8 0.5 -1")).after
      (create "SHIFT" "shift of a window" {} (.blank (.rectangle .double)))
    let deeds : List Deed := [.call (.set "0 0 1024 768"), .call (.apply .add shift.contents),
      .call (.setDouble 5), .call (.select "full"), .clearDirty]
    let window := (create "WINDOW" "part of the chip" { writable := true }
      (.blank (.rectangle .integer))).afterAll deeds
    (∀ d ∈ deeds, ∀ operand ∈ d.operand?, operand.Reached) ∧
      window.kind = .rectangle .integer ∧ window.parts.map Value.name =
        ["WINDOW.X", "WINDOW.Y", "WINDOW.WIDTH", "WINDOW.HEIGHT"] := by
  intro shift deeds window
  have hnew : (Contents.default (.rectangle .double)).Reached :=
    .created (c := .blank (.rectangle .double)) trivial
  have hshift : shift.contents.Reached :=
    .changed (d := .call (.set "8 8 0.5 -1")) hnew fun operand h => by cases h
  clear_value shift
  have hdeeds : ∀ d ∈ deeds, ∀ operand ∈ d.operand?, operand.Reached := by
    intro d hd operand h
    simp only [deeds, List.mem_cons, List.not_mem_nil, or_false] at hd
    rcases hd with rfl | rfl | rfl | rfl | rfl
    · cases h
    · cases h
      exact hshift
    · cases h
    · cases h
    · cases h
  obtain ⟨-, -, -, hkind, -, -, -, hchildren⟩ :=
    representation_kept (c := .blank (.rectangle .integer)) trivial "WINDOW" "part of the chip"
      { writable := true } hdeeds
  obtain ⟨hparts, hnames, -⟩ := hchildren .integer rfl
  exact ⟨hdeeds, hkind, hparts ▸ hnames⟩

end Value

end Observatory
