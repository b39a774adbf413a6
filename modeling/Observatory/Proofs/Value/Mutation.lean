import Observatory.Proofs.Value.RoundTrip
import Observatory.Value.Registry
/-!
# Changes of values

What can be done to a value in place. Whatever it is, and whether it is refused or not, the value
keeps all that it is announced as: its name and description, its flags, its kind and its symbols.

* `Contents.becomes_of_parse`, `Contents.becomes_of_apply` — the two ways of new contents.
* `Mutation.becomes_of_attempt` — a change keeps the profile and leaves a mark.
-/

namespace Observatory

open Record (exists_of_bind)

theorem exists_of_map {ε α β : Type} {x : Except ε α} {f : α → β} {b : β}
    (h : f <$> x = .ok b) : ∃ a, x = .ok a ∧ f a = b := by
  cases x with
  | error e => cases h
  | ok a => exact ⟨a, rfl, Except.ok.inj h⟩

/-! ## Cells -/

namespace Scalar

theorem exists_of_nextAs {α : Type} {convert : List Char → Except ParseError α}
    {cs rest : List Char} {v : α} (h : Token.nextAs convert cs = .ok (v, rest)) :
    ∃ token, convert token = .ok v := by
  obtain ⟨p, -, h⟩ := exists_of_bind h
  obtain ⟨v', hv, h⟩ := exists_of_bind h
  cases h
  exact ⟨p.1, hv⟩

/-- A cell is read as one of the base type that was asked for. -/
theorem base_of_parse {b : Base} {cs rest : List Char} {s : Scalar}
    (h : parse b cs = .ok (s, rest)) : s.base = b := by
  cases b with
  | radec =>
    obtain ⟨p, -, h⟩ := exists_of_bind h
    cases h
    rfl
  | altaz =>
    obtain ⟨p, -, h⟩ := exists_of_bind h
    cases h
    rfl
  | string =>
    simp only [parse] at h
    obtain ⟨token, hs⟩ := exists_of_nextAs h
    cases hs
    rfl
  | _ =>
    simp only [parse] at h
    obtain ⟨token, hs⟩ := exists_of_nextAs h
    obtain ⟨v, -, rfl⟩ := exists_of_map hs
    rfl

/-- An operator leaves the base type of a cell alone. -/
theorem base_of_apply {op : Operator} {target operand s : Scalar}
    (h : target.apply op operand = .ok s) : s.base = target.base := by
  cases target with
  | string _ =>
    unfold apply at h
    dsimp only at h
    split at h <;> cases h
    rfl
  | bool _ =>
    unfold apply at h
    dsimp only at h
    split at h <;> cases h
    rfl
  | integer v =>
    obtain ⟨operand, -, h⟩ := exists_of_bind h
    obtain ⟨result, -, h⟩ := exists_of_bind h
    split at h <;> cases h
    rfl
  | long v =>
    obtain ⟨operand, -, h⟩ := exists_of_bind h
    obtain ⟨result, -, h⟩ := exists_of_bind h
    cases h
    rfl
  | _ =>
    obtain ⟨operand, -, h⟩ := exists_of_bind h
    cases h
    rfl

end Scalar

/-! ## Contents -/

/-- New contents in the place of old ones: of the same kind, with the same symbols, and with cells
of the right base type when what is given was. -/
structure Contents.Becomes (given : Prop) (c d : Contents) : Prop where
  kind : d.kind = c.kind
  symbols : d.symbols = c.symbols
  proper : given → c.Proper → d.Proper

namespace Rectangle

theorem proper_new (base : Base) : (new base).Proper := by
  simp [Proper, parts, new, Scalar.base_default]

theorem proper_of_parse {r s : Rectangle} {cs rest : List Char} (h : r.parse cs = .ok (s, rest)) :
    s.base = r.base ∧ s.Proper := by
  obtain ⟨⟨x, _⟩, hx, h⟩ := exists_of_bind h
  obtain ⟨⟨y, _⟩, hy, h⟩ := exists_of_bind h
  obtain ⟨⟨width, _⟩, hwidth, h⟩ := exists_of_bind h
  obtain ⟨⟨height, _⟩, hheight, h⟩ := exists_of_bind h
  cases h
  refine ⟨rfl, ?_⟩
  simp only [Proper, parts, List.forall_mem_cons, List.not_mem_nil, false_implies, implies_true,
    and_true]
  exact ⟨Scalar.base_of_parse hx, Scalar.base_of_parse hy, Scalar.base_of_parse hwidth,
    Scalar.base_of_parse hheight⟩

theorem base_of_applyPart {op : Operator} {part operand p : Part}
    (h : applyPart op part operand = .ok p) : p.cell.base = part.cell.base := by
  obtain ⟨cell, hcell, h⟩ := exists_of_bind h
  cases h
  exact Scalar.base_of_apply hcell

theorem proper_of_apply {op : Operator} {r operand s : Rectangle}
    (h : r.apply op operand = .ok s) : s.base = r.base ∧ (r.Proper → s.Proper) := by
  obtain ⟨x, hx, h⟩ := exists_of_bind h
  obtain ⟨y, hy, h⟩ := exists_of_bind h
  obtain ⟨width, hwidth, h⟩ := exists_of_bind h
  obtain ⟨height, hheight, h⟩ := exists_of_bind h
  cases h
  refine ⟨rfl, ?_⟩
  simp only [Proper, parts, List.forall_mem_cons, List.not_mem_nil, false_implies, implies_true,
    and_true]
  rintro ⟨bx, byy, bwidth, bheight⟩
  exact ⟨(base_of_applyPart hx).trans bx, (base_of_applyPart hy).trans byy,
    (base_of_applyPart hwidth).trans bwidth, (base_of_applyPart hheight).trans bheight⟩

end Rectangle

namespace Series

theorem base_of_parseItems {b : Base} {fuel : Nat} {cs : List Char} {items : List Scalar}
    (h : parseItems b fuel cs = .ok items) : ∀ i ∈ items, i.base = b := by
  induction fuel generalizing cs items with
  | zero =>
    cases h
    simp
  | succ fuel ih =>
    unfold parseItems at h
    split at h
    · cases h
      simp
    · obtain ⟨⟨item, rest⟩, hitem, h⟩ := exists_of_bind h
      obtain ⟨items', hitems, h⟩ := exists_of_bind h
      cases h
      intro i hi
      rcases List.mem_cons.1 hi with rfl | hi
      · exact Scalar.base_of_parse hitem
      · exact ih hitems i hi

theorem base_of_foldl_set {b : Base} {item : Scalar} (hitem : item.base = b) (indices : List Nat)
    {items : List Scalar} (hitems : ∀ i ∈ items, i.base = b) :
    ∀ i ∈ indices.foldl (fun items n => items.set n item) items, i.base = b := by
  induction indices generalizing items with
  | nil => exact hitems
  | cons n ns ih =>
    refine ih fun i hi => ?_
    rcases List.mem_or_eq_of_mem_set hi with hi | rfl
    · exact hitems i hi
    · exact hitem

theorem base_of_setAt {s t : Series} {indices : List Nat} {item : Scalar}
    (h : s.setAt indices item = .ok t) (hitem : item.base = s.base) :
    t.base = s.base ∧ ((∀ i ∈ s.items, i.base = s.base) → ∀ i ∈ t.items, i.base = s.base) := by
  unfold setAt at h
  split at h
  · cases h
  · cases h
    refine ⟨rfl, fun hitems => ?_⟩
    exact base_of_foldl_set hitem indices hitems

end Series

namespace Contents

variable {given : Prop}

theorem becomes_scalar {a b : Scalar} (h : b.base = a.base) :
    Becomes given (scalar a) (scalar b) :=
  ⟨congrArg Kind.scalar h, rfl, fun _ _ => trivial⟩

theorem becomes_bounded (a b : Bounded) : Becomes given (bounded a) (bounded b) :=
  ⟨rfl, rfl, fun _ _ => trivial⟩

theorem becomes_index (s : Selection) (index : Int32) :
    Becomes given (selection s) (selection { s with index }) := ⟨rfl, rfl, fun _ _ => trivial⟩

/-- **What is read** takes the place of what was there. -/
theorem becomes_of_parse (given : Prop) {c d : Contents} {text : List Char}
    (h : c.parse text = .ok d) : Becomes given c d ∧ d.Proper := by
  cases c with
  | scalar cell =>
    cases cell with
    | string _ =>
      obtain ⟨t, -, h⟩ := exists_of_bind h
      cases h
      exact ⟨becomes_scalar rfl, trivial⟩
    | _ =>
      obtain ⟨⟨cell, rest⟩, hcell, h⟩ := exists_of_bind h
      obtain ⟨_, -, h⟩ := exists_of_bind h
      cases h
      exact ⟨becomes_scalar (Scalar.base_of_parse hcell), trivial⟩
  | selection s =>
    obtain ⟨⟨token, rest⟩, -, h⟩ := exists_of_bind h
    obtain ⟨_, -, h⟩ := exists_of_bind h
    obtain ⟨index, -, h⟩ := exists_of_bind h
    cases h
    exact ⟨becomes_index s index, trivial⟩
  | bounded b =>
    obtain ⟨⟨parsed, rest⟩, -, h⟩ := exists_of_bind h
    obtain ⟨_, -, h⟩ := exists_of_bind h
    cases h
    exact ⟨becomes_bounded b parsed, trivial⟩
  | rectangle r =>
    obtain ⟨⟨parsed, rest⟩, hr, h⟩ := exists_of_bind h
    obtain ⟨_, -, h⟩ := exists_of_bind h
    cases h
    obtain ⟨hbase, hproper⟩ := Rectangle.proper_of_parse hr
    exact ⟨⟨congrArg Kind.rectangle hbase, rfl, fun _ _ => hproper⟩, hproper⟩
  | series s =>
    obtain ⟨parsed, hs, h⟩ := exists_of_bind h
    obtain ⟨items, hitems, hs⟩ := exists_of_bind hs
    cases h
    cases hs
    have hproper := Series.base_of_parseItems hitems
    exact ⟨⟨rfl, rfl, fun _ _ => hproper⟩, hproper⟩

theorem shift_index {op : Operator} {step : Int32} {s t : Selection}
    (h : s.shift op step = .ok t) : ∃ index, t = { s with index } := by
  unfold Selection.shift at h
  dsimp only at h
  cases op with
  | assign =>
    dsimp only at h
    split at h <;> cases h
    exact ⟨_, rfl⟩
  | add =>
    dsimp only at h
    split at h
    · cases h
    · split at h <;> cases h
      exact ⟨_, rfl⟩
  | subtract =>
    dsimp only at h
    split at h
    · cases h
    · split at h
      · split at h <;> cases h <;> exact ⟨_, rfl⟩
      · cases h

/-- **What an operator makes** of contents takes their place. -/
theorem becomes_of_apply {op : Operator} {c operand d : Contents}
    (h : c.apply op operand = .ok d) : Becomes operand.Proper c d := by
  unfold apply at h
  dsimp only at h
  split at h
  · obtain ⟨a, ha, rfl⟩ := exists_of_map h
    exact becomes_scalar (Scalar.base_of_apply ha)
  · obtain ⟨a, ha, rfl⟩ := exists_of_map h
    exact becomes_scalar (Scalar.base_of_apply ha)
  · obtain ⟨a, ha, rfl⟩ := exists_of_map h
    exact becomes_scalar (Scalar.base_of_apply ha)
  · obtain ⟨a, ha, rfl⟩ := exists_of_map h
    obtain ⟨index, rfl⟩ := shift_index ha
    exact becomes_index _ index
  · split at h
    · obtain ⟨a, ha, rfl⟩ := exists_of_map h
      obtain ⟨index, rfl⟩ := shift_index ha
      exact becomes_index _ index
    · cases h
  · split at h
    · cases h
      exact becomes_bounded _ _
    · obtain ⟨a, -, rfl⟩ := exists_of_map h
      exact becomes_bounded _ _
  · split at h
    · obtain ⟨a, -, rfl⟩ := exists_of_map h
      exact becomes_bounded _ _
    · cases h
  · obtain ⟨a, ha, rfl⟩ := exists_of_map h
    obtain ⟨hbase, hproper⟩ := Rectangle.proper_of_apply ha
    exact ⟨congrArg Kind.rectangle hbase, rfl, fun _ => hproper⟩
  · obtain ⟨a, ha, rfl⟩ := exists_of_map h
    unfold Series.apply at ha
    split at ha
    · split at ha
      · next hbase =>
        cases ha
        exact ⟨rfl, rfl, fun hoperand _ i hi => (hoperand i hi).trans hbase⟩
      · cases ha
    · cases ha
  · cases h

end Contents

/-! ## Values -/

/-- All that a value is announced as. -/
structure Profile where
  name : String
  description : String
  flags : Flags
  kind : Kind
  symbols : List String
  deriving DecidableEq

namespace Value

/-- All that the value is announced as. -/
def profile (v : Value) : Profile :=
  ⟨v.name, v.description, v.flags, v.kind, v.contents.symbols⟩

theorem metaRecords_eq (v : Value) :
    v.metaRecords = .metaInfo v.typeWord v.name v.description ::
      v.contents.symbols.map (Record.symbolInfo v.name) := by
  unfold metaRecords
  split
  · next h => rw [h, Contents.symbols]
  · next h =>
    cases hc : v.contents with
    | selection s => exact absurd hc (h s)
    | _ => rfl

/-- The announcement says the profile. -/
theorem metaRecords_of_profile {v w : Value} (h : w.profile = v.profile) :
    w.metaRecords = v.metaRecords := by
  simp only [profile, Profile.mk.injEq] at h
  obtain ⟨hname, hdescription, hflags, hkind, hsymbols⟩ := h
  rw [metaRecords_eq, metaRecords_eq, typeWord, typeWord, hname, hdescription, hflags, hkind,
    hsymbols]

end Value

/-- What can be done to a value in place. -/
inductive Mutation where
  | set (text : String)
  | apply (op : Operator) (operand : Contents)
  | applyText (op : Operator) (text : String)
  | select (symbol : String)
  | setItems (indices : List Nat) (text : String)
  | push (item : Scalar)
  | markDirty
  | clearDirty

namespace Mutation

/-- The changed value, or why the change is refused. -/
def attempt : Mutation → Value → Except OperationError Value
  | set text, v => match v.set text with
    | .ok v => .ok v
    | .error e => .error (.parse e)
  | apply op operand, v => v.apply op operand
  | applyText op text, v => v.applyText op text
  | select symbol, v => v.select symbol
  | setItems indices text, v => v.setItems indices text
  | push item, v => v.push item
  | markDirty, v => .ok v.markDirty
  | clearDirty, v => .ok v.clearDirty

/-- Operands are values too: their cells are of the right base type. -/
def Proper : Mutation → Prop
  | apply _ operand => operand.Proper
  | _ => True

/-- A change that leaves a mark. -/
def marks : Mutation → Bool
  | clearDirty => false
  | _ => true

end Mutation

/-- A value in the place of another one, with cells of the right base type when what is given
was. -/
structure Value.Becomes (given : Prop) (v w : Value) : Prop where
  profile : w.profile = v.profile
  proper : given → v.contents.Proper → w.contents.Proper

namespace Value

variable {given : Prop}

theorem Becomes.of_contents {v : Value} {c : Contents} (h : v.contents.Becomes given c) :
    Becomes given v (v.withContents c) :=
  ⟨by simp only [Value.profile, Value.kind, withContents, h.kind, h.symbols], h.proper⟩

/-- New contents leave a mark. -/
theorem becomes_of_set (given : Prop) {v w : Value} {text : String} (h : v.set text = .ok w) :
    Becomes given v w ∧ w.dirty = true := by
  obtain ⟨c, hc, rfl⟩ := exists_of_map h
  exact ⟨.of_contents (Contents.becomes_of_parse given hc).1, rfl⟩

theorem becomes_of_apply {v w : Value} {op : Operator} {operand : Contents}
    (h : v.apply op operand = .ok w) : Becomes operand.Proper v w ∧ w.dirty = true := by
  obtain ⟨c, hc, rfl⟩ := exists_of_map h
  exact ⟨.of_contents (Contents.becomes_of_apply hc), rfl⟩

theorem becomes_of_applyText (given : Prop) {v w : Value} {op : Operator} {text : String}
    (h : v.applyText op text = .ok w) : Becomes given v w ∧ w.dirty = true := by
  unfold applyText at h
  split at h
  · split at h
    · next hset =>
      cases h
      exact becomes_of_set given hset
    · cases h
  · split at h
    · next hoperand =>
      have hproper := (Contents.becomes_of_parse True hoperand).2
      obtain ⟨hw, hdirty⟩ := becomes_of_apply h
      exact ⟨⟨hw.profile, fun _ => hw.proper hproper⟩, hdirty⟩
    · cases h

theorem becomes_of_series {v w : Value} {s t : Series} (hv : v.contents = .series s)
    (ht : t.base = s.base ∧ ((∀ i ∈ s.items, i.base = s.base) → ∀ i ∈ t.items, i.base = s.base))
    (hw : v.withContents (.series t) = w) : Becomes given v w ∧ w.dirty = true := by
  subst hw
  refine ⟨.of_contents ⟨?_, ?_, fun _ hproper => ?_⟩, rfl⟩
  · rw [hv, Contents.kind, Contents.kind, ht.1]
  · rw [hv]
    rfl
  · rw [hv] at hproper
    show ∀ i ∈ t.items, i.base = t.base
    rw [ht.1]
    exact ht.2 hproper

theorem becomes_of_select (given : Prop) {v w : Value} {symbol : String}
    (h : v.select symbol = .ok w) : Becomes given v w ∧ w.dirty = true := by
  unfold select at h
  split at h
  · next s hs =>
    split at h
    · next index _ =>
      cases h
      refine ⟨.of_contents ?_, rfl⟩
      rw [hs]
      exact Contents.becomes_index s index
    · cases h
  · cases h

theorem becomes_of_setItems (given : Prop) {v w : Value} {indices : List Nat} {text : String}
    (h : v.setItems indices text = .ok w) : Becomes given v w ∧ w.dirty = true := by
  simp only [setItems] at h
  split at h
  · next s hs =>
    split at h
    · next item hitem =>
      obtain ⟨t, ht, hw⟩ := exists_of_map h
      obtain ⟨⟨cell, rest⟩, hcell, hitem⟩ := exists_of_bind hitem
      obtain ⟨_, -, hitem⟩ := exists_of_bind hitem
      cases hitem
      exact becomes_of_series hs (Series.base_of_setAt ht (Scalar.base_of_parse hcell)) hw
    · cases h
  · cases h

theorem becomes_of_push (given : Prop) {v w : Value} {item : Scalar} (h : v.push item = .ok w) :
    Becomes given v w ∧ w.dirty = true := by
  unfold push at h
  split at h
  · next s hs =>
    obtain ⟨t, ht, hw⟩ := exists_of_map h
    unfold Series.push at ht
    split at ht
    · next hitem =>
      cases ht
      have hitems (hitems : ∀ i ∈ s.items, i.base = s.base) :
          ∀ i ∈ s.items ++ [item], i.base = s.base := by
        intro i hi
        rcases List.mem_append.1 hi with hi | hi
        · exact hitems i hi
        · rw [List.mem_singleton.1 hi, hitem]
      exact becomes_of_series (t := { s with items := s.items ++ [item] }) hs ⟨rfl, hitems⟩ hw
    · cases ht
  · cases h

end Value

/-- **A change** that is not refused keeps the profile, and leaves a mark unless it takes it off. -/
theorem Mutation.becomes_of_attempt {m : Mutation} {v w : Value} (h : m.attempt v = .ok w) :
    v.Becomes m.Proper w ∧ (m.marks = true → w.dirty = true) := by
  have hmarks {given : Prop} (hw : v.Becomes given w ∧ w.dirty = true) :
      v.Becomes given w ∧ (m.marks = true → w.dirty = true) := hw.imp_right fun hdirty _ => hdirty
  cases m with
  | set text =>
    simp only [attempt] at h
    split at h
    · next hset =>
      cases h
      exact hmarks (Value.becomes_of_set _ hset)
    · cases h
  | apply op operand => exact hmarks (Value.becomes_of_apply h)
  | applyText op text => exact hmarks (Value.becomes_of_applyText _ h)
  | select symbol => exact hmarks (Value.becomes_of_select _ h)
  | setItems indices text => exact hmarks (Value.becomes_of_setItems _ h)
  | push item => exact hmarks (Value.becomes_of_push _ h)
  | markDirty =>
    cases h
    exact ⟨⟨rfl, fun _ h => h⟩, fun _ => rfl⟩
  | clearDirty =>
    cases h
    exact ⟨⟨rfl, fun _ h => h⟩, fun hmarks => by cases hmarks⟩

end Observatory
