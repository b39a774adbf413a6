import Observatory.Proofs.Text.Zero
import Observatory.Proofs.Value.Mutation
/-!
# What a value shows

What people are shown of a value is made of numbers, of words that stand for truth, and of texts
that came as they are: strings and symbols. Only these can hold the character of code zero, and
they hold it only if what they were read from held or spelt it.

* `Text.numeral_displayDouble` — numbers on the screen.
* `Contents.nul_mem_display_iff` — the texts of a value decide what it shows.
* `Contents.Clean.of_parse` — what is read of a text without that character is without it.
-/

namespace Observatory

open Record (exists_of_bind)

/-! ## Numbers on the screen -/

namespace Text

theorem Numeral.nul_not_mem {cs : List Char} (h : Numeral cs) : '\x00' ∉ cs :=
  fun hmem => absurd (h _ hmem) (by decide)

theorem Numeral.subset {a b : List Char} (h : Numeral b) (hab : a ⊆ b) : Numeral a :=
  fun c hc => h c (hab hc)

theorem numeral_padZeros (width : Nat) {cs : List Char} (h : Numeral cs) :
    Numeral (Number.padZeros width cs) :=
  numeral_append.2 ⟨numeral_replicate_zero _, h⟩

theorem numeral_positional {digits : List Char} (h : Numeral digits) (exponent : Int) :
    Numeral (Number.positional digits exponent) := by
  unfold Number.positional
  split
  · exact numeral_append.2 ⟨h, numeral_replicate_zero _⟩
  · have hpadded := numeral_padZeros ((-exponent).toNat + 1) h
    exact numeral_append.2 ⟨hpadded.subset (List.take_subset _ _),
      numeral_cons.2 ⟨by decide, hpadded.subset (List.drop_subset _ _)⟩⟩

theorem numeral_dropZeros {digits : List Char} (h : Numeral digits) (exponent : Int) :
    Numeral (Number.dropZeros digits exponent).1 := by
  intro c hc
  have hkept : c ∈ digits.reverse.dropWhile (· == '0') := List.mem_reverse.1 hc
  exact h c (List.mem_reverse.1 (List.dropWhile_subset _ hkept))

theorem numeral_shortestScientific (m : Nat) (q : Int) :
    Numeral (Number.shortestScientific m q) := by
  unfold Number.shortestScientific
  split
  · decide
  · dsimp only
    exact numeral_scientific (numeral_dropZeros (numeral_natText _) _) _

theorem numeral_fixedPlaces (places m : Nat) (q : Int) :
    Numeral (Number.fixedPlaces places m q) :=
  numeral_positional (numeral_padZeros _ (numeral_natText _)) _

theorem numeral_displayDouble (x : Float) : Numeral (Number.displayDouble x) := by
  unfold Number.displayDouble
  split
  · decide
  · exact numeral_withSign _ (by decide)
  · dsimp only
    refine numeral_withSign _ ?_
    split
    · exact numeral_fixedPlaces _ _ _
    · exact numeral_shortestScientific _ _

end Text

/-! ## Texts that are shown as they are -/

namespace Scalar

open Text (numeral_displayDouble numeral_intText)

/-- The text of a string. -/
def spoken : Scalar → List (List Char)
  | string text => [text.toList]
  | _ => []

theorem spoken_of_base {cell : Scalar} (h : cell.base ≠ .string) : cell.spoken = [] := by
  cases cell with
  | string text => exact absurd rfl h
  | _ => rfl

theorem nul_mem_display_iff (cell : Scalar) :
    '\x00' ∈ cell.display ↔ ∃ t ∈ cell.spoken, '\x00' ∈ t := by
  have hpair (a b : Float) :
      '\x00' ∉ Number.displayDouble a ++ ' ' :: Number.displayDouble b := by
    intro hmem
    rcases List.mem_append.1 hmem with hmem | hmem
    · exact (numeral_displayDouble a).nul_not_mem hmem
    · rcases List.mem_cons.1 hmem with hspace | hmem
      · exact absurd hspace (by decide)
      · exact (numeral_displayDouble b).nul_not_mem hmem
  have hnone {cs : List Char} (h : '\x00' ∉ cs) :
      '\x00' ∈ cs ↔ ∃ t ∈ ([] : List (List Char)), '\x00' ∈ t := by
    simp [h]
  cases cell with
  | string text => simp [display, spoken]
  | integer v => exact hnone (numeral_intText _).nul_not_mem
  | long v => exact hnone (numeral_intText _).nul_not_mem
  | time v => exact hnone (numeral_displayDouble v).nul_not_mem
  | double v => exact hnone (numeral_displayDouble v).nul_not_mem
  | float v => exact hnone (numeral_displayDouble _).nul_not_mem
  | bool v => exact hnone (by cases v <;> decide)
  | radec a b => exact hnone (hpair a b)
  | altaz a b => exact hnone (hpair a b)

end Scalar

theorem Selection.nul_mem_display_iff (s : Selection) :
    '\x00' ∈ s.display ↔ ∃ t ∈ (s.selected?.map String.toList).toList, '\x00' ∈ t := by
  unfold display
  cases s.selected? with
  | none => simp [(Text.numeral_intText s.index.toInt).nul_not_mem]
  | some symbol => simp

theorem Series.nul_mem_join_iff (text : Scalar → List Char) (s : Series) :
    '\x00' ∈ s.join text ↔ ∃ cell ∈ s.items, '\x00' ∈ text cell := by
  unfold join
  induction s.items with
  | nil => simp
  | cons cell cells ih =>
    cases cells with
    | nil => simp
    | cons next cells =>
      rw [List.map_cons, List.map_cons, List.intercalate_cons_cons, List.mem_append,
        List.mem_append, ← List.map_cons, ih, List.mem_singleton]
      simp

namespace Contents

/-- The texts that are shown as they are: strings, and the symbol that is selected. -/
def spoken : Contents → List (List Char)
  | scalar cell => cell.spoken
  | selection s => (s.selected?.map String.toList).toList
  | bounded _ => []
  | rectangle r => r.parts.flatMap fun p => p.2.cell.spoken
  | series s => s.items.flatMap Scalar.spoken

/-- **What a value shows** holds the character of code zero exactly if one of its texts does. -/
theorem nul_mem_display_iff (c : Contents) :
    '\x00' ∈ c.display ↔ ∃ t ∈ c.spoken, '\x00' ∈ t := by
  cases c with
  | scalar cell => exact cell.nul_mem_display_iff
  | selection s => exact s.nul_mem_display_iff
  | bounded b => simp [display, spoken, (Text.numeral_displayDouble b.value).nul_not_mem]
  | rectangle r =>
    simp [display, spoken, Rectangle.display, Rectangle.join, Rectangle.parts,
      Scalar.nul_mem_display_iff, or_and_right, exists_or]
  | series s =>
    show '\x00' ∈ s.join Scalar.display ↔ _
    rw [Series.nul_mem_join_iff]
    simp only [Scalar.nul_mem_display_iff, spoken, List.mem_flatMap]
    constructor
    · rintro ⟨cell, hcell, t, ht, hnul⟩
      exact ⟨t, ⟨cell, hcell, ht⟩, hnul⟩
    · rintro ⟨t, ⟨cell, hcell, ht⟩, hnul⟩
      exact ⟨cell, hcell, t, ht, hnul⟩

end Contents

/-! ## What is read -/

namespace Scalar

open Text (NulFree)

theorem suffix_of_nextAs {α : Type} {convert : List Char → Except ParseError α}
    {cs rest : List Char} {v : α} (h : Token.nextAs convert cs = .ok (v, rest)) : rest <:+ cs := by
  obtain ⟨⟨token, _⟩, hnext, h⟩ := exists_of_bind h
  obtain ⟨v', -, h⟩ := exists_of_bind h
  cases h
  exact Token.suffix_of_next hnext

theorem suffix_of_parsePair {first : List Char → Except ParseError Float} {cs rest : List Char}
    {p : Float × Float} (h : parsePair first cs = .ok (p, rest)) : rest <:+ cs := by
  obtain ⟨⟨a, behind⟩, ha, h⟩ := exists_of_bind h
  dsimp only at h
  split at h
  · cases h
    exact suffix_of_nextAs ha
  · obtain ⟨⟨b, _⟩, hb, h⟩ := exists_of_bind h
    cases h
    exact (suffix_of_nextAs hb).trans (suffix_of_nextAs ha)

theorem suffix_of_parse {b : Base} {cs rest : List Char} {cell : Scalar}
    (h : parse b cs = .ok (cell, rest)) : rest <:+ cs := by
  cases b with
  | radec =>
    obtain ⟨⟨p, _⟩, hp, h⟩ := exists_of_bind h
    cases h
    exact suffix_of_parsePair hp
  | altaz =>
    obtain ⟨⟨p, _⟩, hp, h⟩ := exists_of_bind h
    cases h
    exact suffix_of_parsePair hp
  | _ =>
    simp only [parse] at h
    exact suffix_of_nextAs h

/-- A cell that is read of a text without the character of code zero is without it. -/
theorem nul_not_mem_of_parse {b : Base} {cs rest : List Char} {cell : Scalar} (hcs : NulFree cs)
    (h : parse b cs = .ok (cell, rest)) : ∀ t ∈ cell.spoken, '\x00' ∉ t := by
  by_cases hb : b = .string
  · subst hb
    obtain ⟨⟨token, _⟩, hnext, h⟩ := exists_of_bind h
    cases h
    simpa [spoken] using Token.nul_not_mem_of_next hcs hnext
  · rw [spoken_of_base (by rwa [base_of_parse h])]
    simp

end Scalar

namespace Series

/-- Every item is read of what is left of the text behind the item before it. -/
theorem nul_not_mem_of_parseItems {b : Base} {fuel : Nat} {cs : List Char} {items : List Scalar}
    (hcs : Text.NulFree cs) (h : parseItems b fuel cs = .ok items) :
    ∀ cell ∈ items, ∀ t ∈ cell.spoken, '\x00' ∉ t := by
  induction fuel generalizing cs items with
  | zero =>
    cases h
    simp
  | succ fuel ih =>
    unfold parseItems at h
    split at h
    · cases h
      simp
    · obtain ⟨⟨item, rest⟩, hitem, h⟩ := exists_of_bind h
      obtain ⟨items', hitems, h⟩ := exists_of_bind h
      cases h
      intro cell hcell
      rcases List.mem_cons.1 hcell with rfl | hcell
      · exact Scalar.nul_not_mem_of_parse hcs hitem
      · exact ih (hcs.of_isInfix (Scalar.suffix_of_parse hitem).isInfix) hitems cell hcell

end Series

theorem Rectangle.nul_not_mem_of_parse {r s : Rectangle} {cs rest : List Char}
    (hcs : Text.NulFree cs) (h : r.parse cs = .ok (s, rest)) :
    ∀ p ∈ s.parts, ∀ t ∈ p.2.cell.spoken, '\x00' ∉ t := by
  obtain ⟨⟨x, afterX⟩, hx, h⟩ := exists_of_bind h
  obtain ⟨⟨y, afterY⟩, hy, h⟩ := exists_of_bind h
  obtain ⟨⟨width, afterWidth⟩, hwidth, h⟩ := exists_of_bind h
  obtain ⟨⟨height, _⟩, hheight, h⟩ := exists_of_bind h
  cases h
  have hcsX := hcs.of_isInfix (Scalar.suffix_of_parse hx).isInfix
  have hcsY := hcsX.of_isInfix (Scalar.suffix_of_parse hy).isInfix
  have hcsWidth := hcsY.of_isInfix (Scalar.suffix_of_parse hwidth).isInfix
  simp only [parts, List.forall_mem_cons, List.not_mem_nil, false_implies, implies_true, and_true]
  exact ⟨Scalar.nul_not_mem_of_parse hcs hx, Scalar.nul_not_mem_of_parse hcsX hy,
    Scalar.nul_not_mem_of_parse hcsY hwidth, Scalar.nul_not_mem_of_parse hcsWidth hheight⟩

namespace Contents

open Text (NulFree)

/-- The texts that are held: strings and all symbols, those that are not selected too. -/
def held : Contents → List (List Char)
  | selection s => s.symbols.map String.toList
  | c => c.spoken

/-- No text that is held has the character of code zero in it. -/
def Clean (c : Contents) : Prop := ∀ t ∈ c.held, '\x00' ∉ t

theorem spoken_subset_held (c : Contents) : c.spoken ⊆ c.held := by
  cases c with
  | selection s =>
    intro t ht
    obtain ⟨symbol, hsymbol, rfl⟩ := Option.map_eq_some_iff.1 (Option.mem_toList.1 ht)
    refine List.mem_map_of_mem ?_
    unfold Selection.selected? at hsymbol
    split at hsymbol
    · exact List.mem_of_getElem? hsymbol
    · cases hsymbol
  | _ => exact fun _ h => h

theorem clean_default (k : Kind) : (default k).Clean := by
  unfold Clean
  cases k with
  | scalar b => cases b <;> simp [default, Scalar.default, held, spoken, Scalar.spoken]
  | selection => simp [default, held]
  | bounded => simp [default, held, spoken]
  | rectangle b =>
    cases b <;> simp [default, Rectangle.new, Rectangle.parts, Scalar.default, held, spoken,
      Scalar.spoken]
  | series b => simp [default, held, spoken]

theorem nul_not_mem_of_parseString {text token : List Char} (htext : NulFree text)
    (h : parseString text = .ok token) : '\x00' ∉ token := by
  unfold parseString at h
  split at h
  · obtain ⟨⟨read, rest⟩, hnext, h⟩ := exists_of_bind h
    obtain ⟨_, -, h⟩ := exists_of_bind h
    cases h
    exact Token.nul_not_mem_of_next htext hnext
  · cases h
    exact fun hmem => htext.held ((Text.isInfix_trim text).subset hmem)

/-- **What is read** of a text without the character of code zero is without it. -/
theorem Clean.of_parse {c d : Contents} {text : List Char} (hc : c.Clean) (htext : NulFree text)
    (h : c.parse text = .ok d) : d.Clean := by
  cases c with
  | scalar cell =>
    cases cell with
    | string _ =>
      obtain ⟨token, htoken, h⟩ := exists_of_bind h
      cases h
      simpa [Clean, held, spoken, Scalar.spoken] using nul_not_mem_of_parseString htext htoken
    | _ =>
      obtain ⟨⟨cell, rest⟩, hcell, h⟩ := exists_of_bind h
      obtain ⟨_, -, h⟩ := exists_of_bind h
      cases h
      exact Scalar.nul_not_mem_of_parse htext hcell
  | selection s =>
    obtain ⟨⟨token, rest⟩, -, h⟩ := exists_of_bind h
    obtain ⟨_, -, h⟩ := exists_of_bind h
    obtain ⟨index, -, h⟩ := exists_of_bind h
    cases h
    exact hc
  | bounded b =>
    obtain ⟨⟨parsed, rest⟩, -, h⟩ := exists_of_bind h
    obtain ⟨_, -, h⟩ := exists_of_bind h
    cases h
    exact hc
  | rectangle r =>
    obtain ⟨⟨parsed, rest⟩, hr, h⟩ := exists_of_bind h
    obtain ⟨_, -, h⟩ := exists_of_bind h
    cases h
    intro t ht
    obtain ⟨p, hp, ht⟩ := List.mem_flatMap.1 ht
    exact Rectangle.nul_not_mem_of_parse htext hr p hp t ht
  | series s =>
    obtain ⟨parsed, hs, h⟩ := exists_of_bind h
    obtain ⟨items, hitems, hs⟩ := exists_of_bind hs
    cases h
    cases hs
    intro t ht
    obtain ⟨cell, hcell, ht⟩ := List.mem_flatMap.1 ht
    exact Series.nul_not_mem_of_parseItems htext hitems cell hcell t ht

end Contents

end Observatory
