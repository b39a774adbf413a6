import Observatory.Proofs.Number.Wire
import Observatory.Proofs.Record.RoundTrip
import Observatory.Proofs.Value.WireText
/-!
# Values are read back

The text of a value, read as contents of the same kind with the same symbols, gives the contents
back, whatever the reader held before.

* `Scalar.parse_encode`, `Series.parse_encode` — cells and sequences of cells.
* `Contents.parse_encode` — all contents; only the marks of the parts of a rectangle are new.
-/

namespace Observatory

open Text (isBlank isBlankLine numeral_intText numeral_wireDouble)
open Token (Bare EndsToken endsToken_nil endsToken_space atEnd)

/-! ## Ends of a text -/

/-- A text with something to see at both ends. -/
structure Text.Solid (cs : List Char) : Prop where
  nonempty : cs ≠ []
  head : ∀ c ∈ cs.head?, isBlank c = false
  last : ∀ c ∈ cs.getLast?, isBlank c = false

namespace Text.Solid

theorem of_bare {cs : List Char} (h : Bare cs) : Solid cs :=
  ⟨h.nonempty, fun c hc => h.ink c (List.mem_of_mem_head? hc),
    fun c hc => h.ink c (List.mem_of_mem_getLast? hc)⟩

/-- Nothing matters but the ends. -/
theorem append {a b : List Char} (ha : Solid a) (hb : Solid b) (middle : List Char) :
    Solid (a ++ (middle ++ b)) := by
  refine ⟨by simp [ha.nonempty], fun c hc => ha.head c ?_, fun c hc => hb.last c ?_⟩
  · obtain ⟨d, ds, rfl⟩ := List.exists_cons_of_ne_nil ha.nonempty
    exact hc
  · have hlast := List.getLast?_eq_some_getLast hb.nonempty
    rwa [← List.append_assoc, List.getLast?_append, hlast, Option.some_or, ← hlast] at hc

theorem encode (s : List Char) : Solid (Quoted.encode s) := by
  refine ⟨by simp [Quoted.encode], fun c hc => ?_, fun c hc => ?_⟩
  · simp only [Quoted.encode, List.head?_cons, Option.mem_def, Option.some.injEq] at hc
    rw [← hc]
    decide
  · rw [Quoted.encode, ← List.cons_append, List.getLast?_concat, Option.mem_def,
      Option.some.injEq] at hc
    rw [← hc]
    decide

theorem encodeIfNeeded (s : List Char) : Solid (Quoted.encodeIfNeeded s) := by
  unfold Quoted.encodeIfNeeded
  split
  · next h =>
    cases s with
    | nil => cases h
    | cons c cs =>
      simp only [Quoted.isPlain, Bool.and_eq_true, List.all_eq_true, Bool.not_eq_true',
        Bool.or_eq_false_iff] at h
      have hink (d : Char) (hd : d ∈ c :: cs) : isBlank d = false := (h.2 d hd).1.1.1
      exact ⟨by simp, fun d hd => hink d (List.mem_of_mem_head? hd),
        fun d hd => hink d (List.mem_of_mem_getLast? hd)⟩
  · exact encode s

theorem trimmed {cs : List Char} (h : Solid cs) : Trimmed cs := trimmed_of_ends h.head h.last

theorem atEnd {cs : List Char} (h : Solid cs) (rest : List Char) :
    Token.atEnd (cs ++ rest) = false := by
  obtain ⟨c, cs, rfl⟩ := List.exists_cons_of_ne_nil h.nonempty
  simp [Token.atEnd, isBlankLine, h.head c (by simp)]

end Text.Solid

open Text (Solid Trimmed)

theorem atEnd_space (cs : List Char) : atEnd (' ' :: cs) = atEnd cs := by
  simp [atEnd, isBlankLine, show isBlank ' ' = true by decide]

/-! ## Cells -/

namespace Scalar

/-- The numbers of a cell are read back. -/
def ReadsBack : Scalar → Prop
  | time x => Number.ReadsBack x
  | double x => Number.ReadsBack x
  | float x => Number.ReadsBackSingle x
  | radec a b => Number.ReadsBack a ∧ Number.ReadsBack b
  | altaz a b => Number.ReadsBack a ∧ Number.ReadsBack b
  | _ => True

theorem bare_boolText (v : Bool) : Bare (boolText v) := by
  cases v <;> decide

theorem toBool_boolText (v : Bool) : Token.toBool (boolText v) = .ok v := by
  cases v <;> rfl

theorem solid_pair {a b : Float} (ha : Number.ReadsBack a) (hb : Number.ReadsBack b) :
    Solid (Number.wireDouble a ++ ' ' :: Number.wireDouble b) :=
  (Solid.of_bare (Number.bare_wireDouble ha)).append (.of_bare (Number.bare_wireDouble hb)) [' ']

theorem solid {s : Scalar} (h : s.ReadsBack) : Solid s.encode := by
  cases s with
  | string text => exact .encode _
  | integer v => exact .of_bare (Token.bare_intText _)
  | time x => exact .of_bare (Number.bare_wireDouble h)
  | double x => exact .of_bare (Number.bare_wireDouble h)
  | float x => exact .of_bare (Number.bare_wireSingle h)
  | bool v => exact .of_bare (bare_boolText v)
  | long v => exact .of_bare (Token.bare_intText _)
  | radec a b => exact solid_pair h.1 h.2
  | altaz a b => exact solid_pair h.1 h.2

theorem nextAs_map_bare {α : Type} (make : α → Scalar) {convert : List Char → Except ParseError α}
    {w rest : List Char} {v : α} (h : Bare w) (hconvert : convert w = .ok v)
    (hrest : EndsToken rest) :
    Token.nextAs (fun token => make <$> convert token) (w ++ rest) = .ok (make v, rest) :=
  Token.nextAs_bare h (by rw [hconvert]; rfl) hrest

/-- Both angles of a pair are read. -/
theorem parsePair_encode {first : List Char → Except ParseError Float} {a b : Float}
    (hfirst : first (Number.wireDouble a) = .ok a) (ha : Number.ReadsBack a)
    (hb : Number.ReadsBack b) {rest : List Char} (hrest : EndsToken rest) :
    parsePair first ((Number.wireDouble a ++ ' ' :: Number.wireDouble b) ++ rest) =
      .ok ((a, b), rest) := by
  have hbare := Number.bare_wireDouble hb
  have hmore : atEnd (' ' :: (Number.wireDouble b ++ rest)) = false := by
    rw [atEnd_space]
    exact (Solid.of_bare hbare).atEnd rest
  have hfst := Token.nextAs_bare (Number.bare_wireDouble ha) hfirst
    (endsToken_space (Number.wireDouble b ++ rest))
  have hsnd := Token.nextAs_bare hbare (toDegrees_wireDouble hb) hrest
  unfold parsePair
  rw [List.append_assoc, List.cons_append, hfst]
  show (if atEnd (' ' :: (Number.wireDouble b ++ rest)) = true then _ else
    Token.nextAs toDegrees (' ' :: (Number.wireDouble b ++ rest)) >>= _) = _
  rw [hmore, if_neg Bool.false_ne_true, Token.nextAs_space, hsnd]
  rfl

/-- **A cell** is read back, and what follows it is left. -/
theorem parse_encode {s : Scalar} (h : s.ReadsBack) {rest : List Char} (hrest : EndsToken rest) :
    parse s.base (s.encode ++ rest) = .ok (s, rest) := by
  cases s with
  | string text =>
    show Token.nextAs (fun token => .ok (string (String.ofList token))) _ = _
    exact Token.nextAs_of_next (Token.next_encode _ _) (by rw [String.ofList_toList])
  | integer v =>
    exact nextAs_map_bare integer (Token.bare_intText _) (Token.toInt32_intText v) hrest
  | long v =>
    exact nextAs_map_bare long (Token.bare_intText _) (Token.toInt64_intText v) hrest
  | time x =>
    exact nextAs_map_bare time (Number.bare_wireDouble h) (toDouble_wireDouble h) hrest
  | double x =>
    exact nextAs_map_bare double (Number.bare_wireDouble h) (toDouble_wireDouble h) hrest
  | float x =>
    exact nextAs_map_bare float (Number.bare_wireSingle h) (toSingle_wireSingle h) hrest
  | bool v =>
    exact nextAs_map_bare bool (bare_boolText v) (toBool_boolText v) hrest
  | radec a b =>
    have hpair := parsePair_encode (toAscension_wireDouble h.1) h.1 h.2 hrest
    show (parsePair toAscension _ >>= fun p => pure (radec p.1.1 p.1.2, p.2)) = _
    rw [encode, hpair]
    rfl
  | altaz a b =>
    have hpair := parsePair_encode (toDegrees_wireDouble h.1) h.1 h.2 hrest
    show (parsePair toDegrees _ >>= fun p => pure (altaz p.1.1 p.1.2, p.2)) = _
    rw [encode, hpair]
    rfl

/-- A space in front of a cell is passed over. -/
theorem parse_space (b : Base) (cs : List Char) : parse b (' ' :: cs) = parse b cs := by
  cases b <;> simp only [parse, parsePair, Token.nextAs_space]

theorem parse_space_encode {s : Scalar} (h : s.ReadsBack) {rest : List Char}
    (hrest : EndsToken rest) : parse s.base (' ' :: (s.encode ++ rest)) = .ok (s, rest) := by
  rw [parse_space, parse_encode h hrest]

end Scalar

/-! ## Sequences of cells -/

namespace Series

theorem endsToken_items (items : List Scalar) :
    EndsToken (items.flatMap fun i => ' ' :: i.encode) := by
  cases items with
  | nil => exact endsToken_nil
  | cons i is => exact endsToken_space _

theorem length_le_flatMap (items : List Scalar) :
    items.length ≤ (items.flatMap fun i => ' ' :: i.encode).length := by
  induction items with
  | nil => exact Nat.le_refl _
  | cons i is ih =>
    simp only [List.flatMap_cons, List.length_append, List.length_cons]
    omega

theorem parseItems_step {base : Base} {fuel : Nat} {cs rest : List Char} {item : Scalar}
    (hmore : atEnd cs = false) (hitem : Scalar.parse base cs = .ok (item, rest))
    {items : List Scalar} (hrest : parseItems base fuel rest = .ok items) :
    parseItems base (fuel + 1) cs = .ok (item :: items) := by
  rw [parseItems, hmore, if_neg Bool.false_ne_true, hitem]
  show (parseItems base fuel rest >>= fun items => pure (item :: items)) = _
  rw [hrest]
  rfl

theorem parseItems_flatMap {base : Base} {items : List Scalar}
    (hbase : ∀ i ∈ items, i.base = base) (hreads : ∀ i ∈ items, i.ReadsBack) {fuel : Nat}
    (hfuel : items.length ≤ fuel) :
    parseItems base fuel (items.flatMap fun i => ' ' :: i.encode) = .ok items := by
  induction items generalizing fuel with
  | nil => cases fuel <;> rfl
  | cons i is ih =>
    obtain ⟨fuel, rfl⟩ : ∃ n, fuel = n + 1 := ⟨fuel - 1, by simp at hfuel; omega⟩
    have hi : i.ReadsBack := hreads i List.mem_cons_self
    have hitem := Scalar.parse_space_encode hi (endsToken_items is)
    rw [hbase i List.mem_cons_self] at hitem
    refine parseItems_step ?_ hitem (ih (fun j hj => hbase j (List.mem_cons_of_mem _ hj))
      (fun j hj => hreads j (List.mem_cons_of_mem _ hj)) (by simpa using hfuel))
    rw [atEnd_space]
    exact (Scalar.solid hi).atEnd _

/-- **A series** is read back by a series of the same base type, whatever that holds. -/
theorem parse_encode {s t : Series} (ht : t.base = s.base) (hbase : ∀ i ∈ s.items, i.base = s.base)
    (hreads : ∀ i ∈ s.items, i.ReadsBack) : t.parse s.encode = .ok s := by
  obtain ⟨_, items⟩ := s
  obtain ⟨b, held⟩ := t
  subst ht
  have hitems : parseItems b ((encode ⟨b, items⟩).length + 1) (encode ⟨b, items⟩) =
      .ok items := by
    cases items with
    | nil => rfl
    | cons i is =>
      have hi : i.ReadsBack := hreads i List.mem_cons_self
      have hitem := Scalar.parse_encode hi (endsToken_items is)
      rw [hbase i List.mem_cons_self] at hitem
      rw [encode_cons]
      refine parseItems_step ((Scalar.solid hi).atEnd _) hitem (parseItems_flatMap
        (fun j hj => hbase j (List.mem_cons_of_mem _ hj))
        (fun j hj => hreads j (List.mem_cons_of_mem _ hj)) ?_)
      have hlength := length_le_flatMap is
      rw [List.length_append]
      omega
  show (parseItems b _ _ >>= fun items => pure (⟨b, items⟩ : Series)) = _
  rw [hitems]
  rfl

theorem trimmed {s : Series} (hreads : ∀ i ∈ s.items, i.ReadsBack) : Trimmed s.encode := by
  obtain ⟨base, items⟩ := s
  cases items with
  | nil => rfl
  | cons i is =>
    rw [encode_cons]
    have hi : Solid i.encode := Scalar.solid (hreads i List.mem_cons_self)
    rcases List.eq_nil_or_concat is with rfl | ⟨js, j, rfl⟩
    · simpa using hi.trimmed
    · have hj : Solid j.encode := Scalar.solid (hreads j (by simp))
      have hsolid := hi.append hj (js.flatMap (fun i => ' ' :: i.encode) ++ [' '])
      simpa using hsolid.trimmed

end Series

/-! ## Bounded doubles, rectangles and selections -/

namespace Bounded

structure ReadsBack (b : Bounded) : Prop where
  value : Number.ReadsBack b.value
  min : Number.ReadsBack b.min
  max : Number.ReadsBack b.max

theorem solid {b : Bounded} (h : b.ReadsBack) : Solid b.encode := by
  have hsolid := (Solid.of_bare (Number.bare_wireDouble h.value)).append
    (.of_bare (Number.bare_wireDouble h.max)) (' ' :: Number.wireDouble b.min ++ [' '])
  simpa [encode] using hsolid

/-- **A bounded double** that lies in its range is read back, with the range. -/
theorem parse_encode {b : Bounded} (h : b.ReadsBack) (hin : b.contains b.value = true)
    (held : Bounded) : held.parse b.encode = .ok (b, []) := by
  have hvalue := Token.nextAs_bare (Number.bare_wireDouble h.value) (toDouble_wireDouble h.value)
    (endsToken_space (Number.wireDouble b.min ++ ' ' :: Number.wireDouble b.max))
  have hmin := Token.nextAs_bare (Number.bare_wireDouble h.min) (toDouble_wireDouble h.min)
    (endsToken_space (Number.wireDouble b.max))
  have hmax := Token.nextAs_bare (Number.bare_wireDouble h.max) (toDouble_wireDouble h.max)
    endsToken_nil
  rw [List.append_nil] at hmax
  have hmore : atEnd (' ' :: (Number.wireDouble b.min ++ ' ' :: Number.wireDouble b.max)) =
      false := by
    rw [atEnd_space]
    exact (Solid.of_bare (Number.bare_wireDouble h.min)).atEnd _
  unfold parse encode
  rw [hvalue]
  simp only [bind, Except.bind]
  rw [hmore, if_neg Bool.false_ne_true, Token.nextAs_space, hmin]
  simp only [Token.nextAs_space, hmax]
  show (if Bounded.contains b b.value = true then _ else _) = _
  rw [if_pos hin]
  rfl

end Bounded

namespace Rectangle

/-- The parts are of the base type of the rectangle. -/
def Proper (r : Rectangle) : Prop := ∀ p ∈ r.parts, p.2.cell.base = r.base

/-- A rectangle without the marks of its parts. -/
def unmarked (r : Rectangle) : Rectangle :=
  ⟨r.base, ⟨r.x.cell, false⟩, ⟨r.y.cell, false⟩, ⟨r.width.cell, false⟩, ⟨r.height.cell, false⟩⟩

theorem solid {r : Rectangle} (hreads : ∀ p ∈ r.parts, p.2.cell.ReadsBack) : Solid r.encode := by
  simp only [parts, List.forall_mem_cons] at hreads
  obtain ⟨hx, -, -, hheight, -⟩ := hreads
  have hsolid := (Scalar.solid hx).append (Scalar.solid hheight)
    (' ' :: (r.y.cell.encode ++ ' ' :: r.width.cell.encode) ++ [' '])
  simpa [encode, join] using hsolid

/-- **A rectangle** is read back by one of the same base type; its parts are marked. -/
theorem parse_encode {r held : Rectangle} (hheld : held.base = r.base) (hproper : r.Proper)
    (hreads : ∀ p ∈ r.parts, p.2.cell.ReadsBack) :
    ∃ s, held.parse r.encode = .ok (s, []) ∧ s.unmarked = r.unmarked := by
  simp only [Proper, parts, List.forall_mem_cons] at hproper hreads
  obtain ⟨bx, byy, bw, bh, -⟩ := hproper
  obtain ⟨rx, ry, rw', rh, -⟩ := hreads
  have hx := Scalar.parse_encode rx (endsToken_space
    (r.y.cell.encode ++ ' ' :: (r.width.cell.encode ++ ' ' :: r.height.cell.encode)))
  have hy := Scalar.parse_space_encode ry (endsToken_space
    (r.width.cell.encode ++ ' ' :: r.height.cell.encode))
  have hw := Scalar.parse_space_encode rw' (endsToken_space r.height.cell.encode)
  have hh := Scalar.parse_space_encode rh endsToken_nil
  rw [bx, ← hheld] at hx
  rw [byy, ← hheld] at hy
  rw [bw, ← hheld] at hw
  rw [bh, ← hheld, List.append_nil] at hh
  refine ⟨⟨held.base, ⟨r.x.cell, true⟩, ⟨r.y.cell, true⟩, ⟨r.width.cell, true⟩,
    ⟨r.height.cell, true⟩⟩, ?_, ?_⟩
  · unfold parse encode join
    rw [hx]
    simp only [bind, Except.bind, hy, hw, hh]
    rfl
  · rw [unmarked, unmarked, hheld]

end Rectangle

namespace Selection

/-- The text of a selection tells its index: the symbols are all different and the index names one
of them, or there are none. -/
def IsTelling (s : Selection) : Prop :=
  s.symbols = [] ∨ s.symbols.Nodup ∧ s.inRange s.index.toInt = true

theorem solid (s : Selection) : Solid s.encode := by
  unfold encode
  split
  · exact .encodeIfNeeded _
  · exact .of_bare (Token.bare_intText _)

/-- The index names one of the symbols, or there are none. -/
def IsPlaced (s : Selection) : Prop := s.symbols = [] ∨ s.selected?.isSome = true

theorem selected?_of_inRange {s : Selection} (h : s.inRange s.index.toInt = true) :
    s.selected?.isSome = true := by
  simp only [inRange, Bool.and_eq_true, decide_eq_true_eq] at h
  have hsize : s.size ≤ s.symbols.length := Int.min_le_left _ _
  have hlt : s.index.toInt.toNat < s.symbols.length := by omega
  rw [selected?, if_pos h.1, List.getElem?_eq_getElem hlt]
  rfl

theorem IsTelling.isPlaced {s : Selection} (h : s.IsTelling) : s.IsPlaced :=
  h.imp_right fun h => selected?_of_inRange h.2

theorem IsTelling.nodup {s : Selection} (h : s.IsTelling) : s.symbols.Nodup := by
  rcases h with hnil | ⟨hnodup, -⟩
  · rw [hnil]
    exact List.nodup_nil
  · exact hnodup

/-- Where the symbols are all different, a selected one is found at the index. -/
theorem position?_of_selected {s : Selection} (hnodup : s.symbols.Nodup) {symbol : String}
    (h : s.selected? = some symbol) : s.position? symbol = some s.index := by
  unfold selected? at h
  by_cases hnonneg : 0 ≤ s.index.toInt
  · rw [if_pos hnonneg] at h
    obtain ⟨hlt, rfl⟩ := List.getElem?_eq_some_iff.1 h
    have hidx : s.symbols.idxOf? s.symbols[s.index.toInt.toNat] = some s.index.toInt.toNat := by
      refine List.idxOf?_eq_some_iff.2 ⟨hlt, rfl, fun j hj => ?_⟩
      exact List.pairwise_iff_getElem.1 hnodup j _ (Nat.lt_trans hj hlt) hlt hj
    rw [position?, hidx, Option.bind_some, Int.toNat_of_nonneg hnonneg, Number.int32?_toInt]
  · rw [if_neg hnonneg] at h
    cases h

/-- The text of a selection is one token, whatever its symbols are. -/
theorem next_encode (s : Selection) : Token.next s.encode = .ok (s.display, []) := by
  unfold encode display
  cases s.selected? with
  | none =>
    have hnext := Token.next_bare (Token.bare_intText s.index.toInt) endsToken_nil
    rwa [List.append_nil] at hnext
  | some symbol =>
    have hnext := Token.next_encodeIfNeeded symbol.toList endsToken_nil
    rwa [List.append_nil] at hnext

/-- **The index of a selection** is read back by one with the same symbols. -/
theorem parseIndex_display {s held : Selection} (hheld : held.symbols = s.symbols)
    (hnodup : s.symbols.Nodup) (h : s.IsPlaced) : held.parseIndex s.display = .ok s.index := by
  have hsame (symbol : String) : held.position? symbol = s.position? symbol := by
    rw [position?, position?, hheld]
  unfold display
  cases hselected : s.selected? with
  | some symbol =>
    dsimp only
    rw [parseIndex, String.ofList_toList, hsame, position?_of_selected hnodup hselected]
  | none =>
    have hnil : s.symbols = [] := h.resolve_right (by simp [hselected])
    have hnone : held.position? (String.ofList (Number.intText s.index.toInt)) = none := by
      simp [position?, hheld, hnil]
    rw [parseIndex, hnone, Number.readInt32_intText]
    simp [hheld, hnil]

end Selection

/-! ## Contents -/

namespace Contents

/-- The symbols of a selection. -/
def symbols : Contents → List String
  | selection s => s.symbols
  | _ => []

/-- Cells are of the base type of what holds them. -/
def Proper : Contents → Prop
  | rectangle r => r.Proper
  | series s => ∀ i ∈ s.items, i.base = s.base
  | _ => True

/-- The text says it all: a selection tells its index, a bounded double lies in its range, and
numbers are read back. -/
def IsTelling : Contents → Prop
  | scalar cell => cell.ReadsBack
  | selection s => s.IsTelling
  | bounded b => b.ReadsBack ∧ b.contains b.value = true
  | rectangle r => ∀ p ∈ r.parts, p.2.cell.ReadsBack
  | series s => ∀ i ∈ s.items, i.ReadsBack

/-- The contents without the marks of parts. -/
def unmarked : Contents → Contents
  | rectangle r => rectangle r.unmarked
  | c => c

theorem trimmed {c : Contents} (h : c.IsTelling) : Trimmed c.encode := by
  cases c with
  | scalar cell => exact (Scalar.solid h).trimmed
  | selection s => exact s.solid.trimmed
  | bounded b => exact (Bounded.solid h.1).trimmed
  | rectangle r => exact (Rectangle.solid h).trimmed
  | series s => exact Series.trimmed h

theorem parseString_encode (s : List Char) : parseString (Text.Quoted.encode s) = .ok s := by
  have hskip : Text.skipBlank (Text.Quoted.encode s) = '"' :: (Text.Quoted.encode s).tail :=
    Token.skipBlank_of_ink (by decide)
  have hnext := Token.next_encode s []
  rw [List.append_nil] at hnext
  unfold parseString
  rw [hskip]
  show (Token.next _ >>= fun p => Token.finish p.2 >>= fun _ => pure p.1) = _
  rw [hnext]
  rfl

theorem parse_selection {held : Selection} {text token : List Char}
    (hnext : Token.next text = .ok (token, [])) :
    (selection held).parse text =
      (fun index => selection { held with index }) <$> held.parseIndex token := by
  show (Token.next text >>= fun p => Token.finish p.2 >>= fun _ =>
    held.parseIndex p.1 >>= fun index => pure (selection { held with index })) = _
  rw [hnext]
  show (held.parseIndex token >>= fun index => pure (selection { held with index })) = _
  cases held.parseIndex token <;> rfl

/-- **Contents** are read back by contents of the same kind with the same symbols. -/
theorem parse_encode {held c : Contents} (hkind : held.kind = c.kind)
    (hsymbols : held.symbols = c.symbols) (hproper : c.Proper) (h : c.IsTelling) :
    ∃ d, held.parse c.encode = .ok d ∧ d.unmarked = c.unmarked := by
  cases c with
  | scalar cell =>
    cases held with
    | scalar held =>
      refine ⟨scalar cell, ?_, rfl⟩
      have hbase : held.base = cell.base := by simpa [kind] using hkind
      have hcell := Scalar.parse_encode h endsToken_nil
      rw [List.append_nil, ← hbase] at hcell
      cases cell with
      | string text =>
        cases held with
        | string _ =>
          show (parseString _ >>= fun t => pure (scalar (.string (String.ofList t)))) = _
          rw [encode, Scalar.encode, parseString_encode]
          show Except.ok _ = _
          rw [String.ofList_toList]
        | _ => cases hbase
      | _ =>
        cases held with
        | string _ => cases hbase
        | _ =>
          show (Scalar.parse _ _ >>= fun p => Token.finish p.2 >>= fun _ => pure (scalar p.1)) = _
          rw [encode, hcell]
          rfl
    | _ => cases hkind
  | selection s =>
    cases held with
    | selection held =>
      refine ⟨selection s, ?_, rfl⟩
      rw [encode, parse_selection s.next_encode,
        Selection.parseIndex_display hsymbols h.nodup h.isPlaced]
      obtain ⟨index, symbols⟩ := s
      obtain ⟨_, _⟩ := held
      cases hsymbols
      rfl
    | _ => cases hkind
  | bounded b =>
    cases held with
    | bounded held =>
      refine ⟨bounded b, ?_, rfl⟩
      show (held.parse b.encode >>= fun p => Token.finish p.2 >>= fun _ => pure (bounded p.1)) = _
      rw [Bounded.parse_encode h.1 h.2 held]
      rfl
    | _ => cases hkind
  | rectangle r =>
    cases held with
    | rectangle held =>
      obtain ⟨s, hparse, hsame⟩ :=
        Rectangle.parse_encode (by simpa [kind] using hkind : held.base = r.base) hproper h
      refine ⟨rectangle s, ?_, by rw [unmarked, unmarked, hsame]⟩
      show (held.parse r.encode >>= fun p => Token.finish p.2 >>= fun _ => pure (rectangle p.1)) = _
      rw [hparse]
      rfl
    | _ => cases hkind
  | series s =>
    cases held with
    | series held =>
      refine ⟨series s, ?_, rfl⟩
      show (held.parse s.encode >>= fun s => pure (series s)) = _
      rw [Series.parse_encode (by simpa [kind] using hkind) hproper h]
      rfl
    | _ => cases hkind

end Contents

end Observatory
