import Observatory.Proofs.Value.Mutation
/-!
# Values and their histories

What a value can hold once it was created and changed any number of times, by texts and by other
values that came about in the same way, and whether the text of such a value tells what it holds.

* `Contents.Attained.coherent` — whatever was done to it, a bounded double lies in its range, the
  symbols of a selection are all different, and cells are of the right base type.
* `Value.set_text_iff` — the text of a value is read back exactly when its index, if it has one,
  names a symbol. A selection with symbols can be shifted to an index that does not.
-/

namespace Observatory

open Record (exists_of_bind)

/-! ## Ranges are kept -/

namespace Bounded

theorem contains_of_checked {α : Type} {p q : Bounded} {value : Float} {rest last : α}
    {e : ParseError} (hvalue : q.value = value)
    (h : (if q.contains value = true then Except.ok (q, rest) else Except.error e) =
      Except.ok (p, last)) : p.contains p.value = true := by
  split at h
  · next hin =>
    cases h
    rw [hvalue]
    exact hin
  · cases h

/-- What is read lies in the range that is read with it, or that was there before. -/
theorem contains_of_parse {b p : Bounded} {cs rest : List Char}
    (h : b.parse cs = .ok (p, rest)) : p.contains p.value = true := by
  obtain ⟨⟨value, behind⟩, -, h⟩ := exists_of_bind h
  dsimp only at h
  split at h
  · exact contains_of_checked rfl h
  · obtain ⟨⟨min, behind⟩, -, h⟩ := exists_of_bind h
    obtain ⟨⟨max, behind⟩, -, h⟩ := exists_of_bind h
    exact contains_of_checked rfl h

/-- What an operator makes of the number lies in the range. -/
theorem contains_of_apply {op : Operator} {x : Float} {b p : Bounded}
    (h : b.apply op x = .ok p) : p.contains p.value = true := by
  simp only [apply] at h
  split at h
  · next hin =>
    cases h
    exact hin
  · cases h

end Bounded

namespace Contents

/-- A bounded double lies in its range. -/
def InBounds : Contents → Prop
  | bounded b => b.contains b.value = true
  | _ => True

theorem inBounds_of_kind {c : Contents} (h : c.kind ≠ .bounded) : c.InBounds := by
  cases c with
  | bounded b => exact absurd rfl h
  | _ => trivial

theorem inBounds_of_parse {b : Bounded} {d : Contents} {text : List Char}
    (h : (bounded b).parse text = .ok d) : d.InBounds := by
  obtain ⟨⟨parsed, rest⟩, hparsed, h⟩ := exists_of_bind h
  obtain ⟨_, -, h⟩ := exists_of_bind h
  cases h
  exact Bounded.contains_of_parse hparsed

/-- Assigned as a whole, the operand must lie in the range that it brings along. -/
theorem inBounds_of_apply {op : Operator} {b : Bounded} {operand d : Contents}
    (hoperand : operand.InBounds) (h : (bounded b).apply op operand = .ok d) : d.InBounds := by
  cases operand with
  | bounded x =>
    simp only [apply] at h
    split at h
    · cases h
      exact hoperand
    · obtain ⟨p, hp, rfl⟩ := exists_of_map h
      exact Bounded.contains_of_apply hp
  | scalar x =>
    simp only [apply] at h
    split at h
    · obtain ⟨p, hp, rfl⟩ := exists_of_map h
      exact Bounded.contains_of_apply hp
    · cases h
  | _ => cases h

end Contents

namespace Value

variable {v w : Value} {b : Bounded}

theorem inBounds_of_set (hv : v.contents = .bounded b) {text : String} (h : v.set text = .ok w) :
    w.contents.InBounds := by
  obtain ⟨c, hc, rfl⟩ := exists_of_map h
  rw [hv] at hc
  exact Contents.inBounds_of_parse hc

theorem inBounds_of_apply (hv : v.contents = .bounded b) {op : Operator} {operand : Contents}
    (hoperand : operand.InBounds) (h : v.apply op operand = .ok w) : w.contents.InBounds := by
  obtain ⟨c, hc, rfl⟩ := exists_of_map h
  rw [hv] at hc
  exact Contents.inBounds_of_apply hoperand hc

theorem inBounds_of_applyText (hv : v.contents = .bounded b) {op : Operator} {text : String}
    (h : v.applyText op text = .ok w) : w.contents.InBounds := by
  unfold applyText at h
  split at h
  · split at h
    · next hset =>
      cases h
      exact inBounds_of_set hv hset
    · cases h
  · split at h
    · next operand hparse =>
      -- the operand of a bounded double is read as a number
      have hkind : operand.kind = .scalar .double := by
        rw [(Contents.becomes_of_parse True hparse).1.kind, hv]
        rfl
      refine inBounds_of_apply hv (Contents.inBounds_of_kind ?_) h
      rw [hkind]
      intro heq
      cases heq
    · cases h

end Value

/-- A change that is not refused leaves a bounded double in its range. -/
theorem Mutation.inBounds_of_attempt {m : Mutation} {v w : Value} (hv : v.contents.InBounds)
    (hm : ∀ op operand, m = .apply op operand → operand.InBounds) (h : m.attempt v = .ok w) :
    w.contents.InBounds := by
  have hkind : w.contents.kind = v.contents.kind :=
    congrArg Profile.kind (Mutation.becomes_of_attempt h).1.profile
  cases hc : v.contents with
  | bounded b =>
    cases m with
    | set text =>
      simp only [attempt] at h
      split at h
      · next hset =>
        cases h
        exact Value.inBounds_of_set hc hset
      · cases h
    | apply op operand => exact Value.inBounds_of_apply hc (hm op operand rfl) h
    | applyText op text => exact Value.inBounds_of_applyText hc h
    | select symbol =>
      simp only [attempt, Value.select, hc] at h
      cases h
    | setItems indices text =>
      simp only [attempt, Value.setItems, hc] at h
      cases h
    | push item =>
      simp only [attempt, Value.push, hc] at h
      cases h
    | markDirty =>
      cases h
      exact hv
    | clearDirty =>
      cases h
      exact hv
  | _ =>
    refine Contents.inBounds_of_kind ?_
    rw [hkind, hc]
    intro heq
    cases heq

/-! ## What histories lead to -/

namespace Contents

/-- What a value can be created with: a selection of symbols that are all different, a bounded
double in its range, a rectangle of new cells, a series without items and any cell. -/
def IsInitial : Contents → Prop
  | scalar _ => True
  | selection s => s.index = 0 ∧ s.symbols.Nodup
  | bounded b => b.contains b.value = true
  | rectangle r => r = Rectangle.new r.base
  | series s => s.items = []

/-- What values can hold after any number of changes that were not refused. The values that are
taken as operands came about in the same way. -/
inductive Attained : Contents → Prop
  | initial {c : Contents} (h : c.IsInitial) : Attained c
  | change {m : Mutation} {v w : Value} (hv : Attained v.contents)
      (hm : ∀ op operand, m = .apply op operand → Attained operand)
      (h : m.attempt v = .ok w) : Attained w.contents

/-- Cells are of the base type of what holds them, and a bounded double lies in its range. -/
structure Regular (c : Contents) : Prop where
  proper : c.Proper
  inBounds : c.InBounds

theorem Regular.of_attempt {m : Mutation} {v w : Value} (hv : v.contents.Regular)
    (hm : ∀ op operand, m = .apply op operand → operand.Regular) (h : m.attempt v = .ok w) :
    w.contents.Regular := by
  refine ⟨(Mutation.becomes_of_attempt h).1.proper ?_ hv.proper, ?_⟩
  · cases m with
    | apply op operand => exact (hm op operand rfl).proper
    | _ => trivial
  · exact Mutation.inBounds_of_attempt hv.inBounds
      (fun op operand heq => (hm op operand heq).inBounds) h

/-- What every history keeps. -/
structure Coherent (c : Contents) : Prop where
  proper : c.Proper
  distinct : c.symbols.Nodup
  inBounds : c.InBounds

theorem IsInitial.coherent {c : Contents} (h : c.IsInitial) : c.Coherent := by
  cases c with
  | scalar cell => exact ⟨trivial, List.nodup_nil, trivial⟩
  | selection s => exact ⟨trivial, h.2, trivial⟩
  | bounded b => exact ⟨trivial, List.nodup_nil, h⟩
  | rectangle r =>
    refine ⟨?_, List.nodup_nil, trivial⟩
    have hr : r = Rectangle.new r.base := h
    rw [hr]
    exact Rectangle.proper_new r.base
  | series s =>
    refine ⟨?_, List.nodup_nil, trivial⟩
    have hs : s.items = [] := h
    simp [Proper, hs]

theorem Coherent.regular {c : Contents} (h : c.Coherent) : c.Regular := ⟨h.proper, h.inBounds⟩

/-- **One change** keeps contents coherent, if its operand is. -/
theorem Coherent.of_attempt {m : Mutation} {v w : Value} (hv : v.contents.Coherent)
    (hm : ∀ op operand, m = .apply op operand → operand.Coherent) (h : m.attempt v = .ok w) :
    w.contents.Coherent := by
  have hregular : w.contents.Regular :=
    hv.regular.of_attempt (fun op operand heq => (hm op operand heq).regular) h
  have hsymbols : w.contents.symbols = v.contents.symbols :=
    congrArg Profile.symbols (Mutation.becomes_of_attempt h).1.profile
  refine ⟨hregular.proper, ?_, hregular.inBounds⟩
  rw [hsymbols]
  exact hv.distinct

/-- **Every history** leads to coherent contents. -/
theorem Attained.coherent {c : Contents} (h : Attained c) : c.Coherent := by
  induction h with
  | initial h => exact h.coherent
  | change hv hm h ihv ihm => exact ihv.of_attempt ihm h

end Contents

/-! ## Which texts tell what is held -/

namespace Selection

/-- A symbol that is found at the index is selected. -/
theorem isSome_selected?_of_position? {s : Selection} {symbol : String}
    (h : s.position? symbol = some s.index) : s.selected?.isSome = true := by
  obtain ⟨i, hi, hindex⟩ := Option.bind_eq_some_iff.1 h
  obtain ⟨hlt, -, -⟩ := List.idxOf?_eq_some_iff.1 hi
  unfold Number.int32? at hindex
  split at hindex
  · have hindex : s.index.toInt = i := by
      rw [← Option.some.inj hindex, Int32.toInt_ofIntLE]
    rw [selected?, hindex, if_pos (Int.natCast_nonneg i), Int.toNat_natCast,
      List.getElem?_eq_getElem hlt]
    rfl
  · cases hindex

/-- Only the text of an index that names a symbol leads back to it: the number that is written for
any other index is refused, or taken for a symbol of that name. -/
theorem isPlaced_of_parseIndex {s held : Selection} (hheld : held.symbols = s.symbols)
    (h : held.parseIndex s.display = .ok s.index) : s.IsPlaced := by
  unfold display at h
  cases hselected : s.selected? with
  | some symbol => exact .inr (by rw [hselected]; rfl)
  | none =>
    simp only [hselected, parseIndex] at h
    split at h
    · next i hposition =>
      have hposition : s.position? (String.ofList (Number.intText s.index.toInt)) =
          some s.index := by
        rw [position?, ← hheld, ← position?, hposition, Except.ok.inj h]
      exact .inr (isSome_selected?_of_position? hposition)
    · rw [Number.readInt32_intText] at h
      dsimp only at h
      split at h
      · next hin =>
        rw [Bool.or_eq_true, hheld, List.isEmpty_iff] at hin
        refine hin.imp_right fun hin => selected?_of_inRange ?_
        rwa [inRange, size, hheld] at hin
      · cases h

end Selection

namespace Contents

/-- The numbers that are held are read back. -/
def ReadsBack : Contents → Prop
  | scalar cell => cell.ReadsBack
  | selection _ => True
  | bounded b => b.ReadsBack
  | rectangle r => ∀ p ∈ r.parts, p.2.cell.ReadsBack
  | series s => ∀ i ∈ s.items, i.ReadsBack

/-- The index of a selection names a symbol, or there are no symbols. -/
def IsPlaced : Contents → Prop
  | selection s => s.IsPlaced
  | _ => True

/-- **Coherent contents** are read back by contents of the same kind with the same symbols exactly
when their index, if they have one, names a symbol. -/
theorem parse_encode_iff {held c : Contents} (hkind : held.kind = c.kind)
    (hsymbols : held.symbols = c.symbols) (hc : c.Coherent) (hreads : c.ReadsBack) :
    (∃ d, held.parse c.encode = .ok d ∧ d.unmarked = c.unmarked) ↔ c.IsPlaced := by
  cases c with
  | scalar cell => exact iff_of_true (parse_encode hkind hsymbols hc.proper hreads) trivial
  | selection s =>
    cases held with
    | selection held =>
      rw [encode, parse_selection s.next_encode]
      constructor
      · rintro ⟨d, hd, hsame⟩
        obtain ⟨index, hindex, rfl⟩ := exists_of_map hd
        have hs : ({ held with index } : Selection) = s := Contents.selection.inj hsame
        refine Selection.isPlaced_of_parseIndex hsymbols (hindex.trans ?_)
        rw [← hs]
      · intro hplaced
        refine ⟨selection s, ?_, rfl⟩
        rw [Selection.parseIndex_display hsymbols hc.distinct hplaced]
        obtain ⟨index, symbols⟩ := s
        obtain ⟨_, _⟩ := held
        cases hsymbols
        rfl
    | _ => cases hkind
  | bounded b =>
    exact iff_of_true (parse_encode hkind hsymbols hc.proper ⟨hreads, hc.inBounds⟩) trivial
  | rectangle r => exact iff_of_true (parse_encode hkind hsymbols hc.proper hreads) trivial
  | series s => exact iff_of_true (parse_encode hkind hsymbols hc.proper hreads) trivial

end Contents

namespace Value

/-- **The text of a value** sets any value of its kind with its symbols to what it holds itself,
exactly when that is no index or one that names a symbol. -/
theorem set_text_iff {v held : Value} (hv : v.contents.Attained) (hreads : v.contents.ReadsBack)
    (hkind : held.kind = v.kind) (hsymbols : held.contents.symbols = v.contents.symbols) :
    (∃ w, held.set v.text = .ok w ∧ w.contents.unmarked = v.contents.unmarked) ↔
      v.contents.IsPlaced := by
  rw [← Contents.parse_encode_iff hkind hsymbols hv.coherent hreads]
  unfold set text
  rw [String.toList_ofList]
  constructor
  · rintro ⟨w, hw, hsame⟩
    obtain ⟨c, hc, rfl⟩ := exists_of_map hw
    exact ⟨c, hc, hsame⟩
  · rintro ⟨c, hc, hsame⟩
    exact ⟨held.withContents c, by rw [hc]; rfl, hsame⟩

/-- A new wheel of three filters. -/
def filterWheel : Value :=
  { name := "FILTER", description := "", contents := .selection { symbols := ["U", "B", "V"] } }

/-- The wheel after a turn. -/
def turnedTo (index : Int32) : Value :=
  filterWheel.withContents (.selection { index, symbols := ["U", "B", "V"] })

theorem attained_turnedTo {op : Operator} {step : String} {index : Int32}
    (h : filterWheel.applyText op step = .ok (turnedTo index)) :
    (turnedTo index).contents.Attained := by
  have hnew : filterWheel.contents.IsInitial := ⟨rfl, by decide⟩
  refine .change (m := .applyText op step) (.initial hnew) ?_ h
  intro op' operand heq
  cases heq

theorem set_text_of_turn :
    filterWheel.applyText .subtract "1" = .ok (turnedTo 2) ∧
      ∃ w, filterWheel.set (turnedTo 2).text = .ok w ∧
        w.contents.unmarked = (turnedTo 2).contents.unmarked := by
  have hturn : filterWheel.applyText .subtract "1" = .ok (turnedTo 2) := rfl
  exact ⟨hturn, (set_text_iff (attained_turnedTo hturn) trivial rfl rfl).2 (.inr rfl)⟩

/-- A negative step that is added leaves an index whose text the selection itself does not take. -/
theorem set_text_of_negative_turn :
    filterWheel.applyText .add "-1" = .ok (turnedTo (-1)) ∧
      (turnedTo (-1)).contents.Attained ∧
      (turnedTo (-1)).set (turnedTo (-1)).text = .error (.unknownSymbol "-1") := by
  have hturn : filterWheel.applyText .add "-1" = .ok (turnedTo (-1)) := rfl
  exact ⟨hturn, attained_turnedTo hturn, rfl⟩

end Value

end Observatory
