/-!
# Blanks, control characters and words

The character classes of the line protocol, and the three ways a line is taken apart by them:
skipping the blanks in front, trimming both ends, and splitting into words.

* `trim_eq_nil_iff` — a trimmed text is empty exactly when every character is blank.
* `words_blank_free` — no word is empty and no word holds a blank.
-/

namespace Observatory.Text

/-! ## Classes -/

/-- The code points with the Unicode property White_Space, as inclusive ranges in ascending
order. -/
def blankRanges : List (Nat × Nat) :=
  [(0x09, 0x0d), (0x20, 0x20), (0x85, 0x85), (0xa0, 0xa0), (0x1680, 0x1680), (0x2000, 0x200a),
    (0x2028, 0x2029), (0x202f, 0x202f), (0x205f, 0x205f), (0x3000, 0x3000)]

/-- A blank separates tokens: any character with the property White_Space. -/
def isBlank (c : Char) : Bool :=
  blankRanges.any fun r => r.1 ≤ c.toNat && c.toNat ≤ r.2

/-- A control character: general category Cc, which is C0, delete and C1. -/
def isControl (c : Char) : Bool :=
  c.toNat < 0x20 || (0x7f ≤ c.toNat && c.toNat ≤ 0x9f)

/-- What is no blank belongs to a token. -/
def isInk (c : Char) : Bool := !isBlank c

/-- Every blank of the core library's ASCII class is a blank here. -/
theorem isBlank_of_isWhitespace {c : Char} (h : c.isWhitespace = true) : isBlank c = true := by
  simp only [Char.isWhitespace, Bool.or_eq_true, decide_eq_true_eq] at h
  rcases h with ((rfl | rfl) | rfl) | rfl <;> decide

/-! ## Trimming -/

/-- The text without the blanks in front. -/
def skipBlank (cs : List Char) : List Char := cs.dropWhile isBlank

/-- The text without the blanks behind. -/
def dropTrailing (cs : List Char) : List Char := (cs.reverse.dropWhile isBlank).reverse

def trim (cs : List Char) : List Char := dropTrailing (skipBlank cs)

/-- True of a line that says nothing. -/
def isBlankLine (cs : List Char) : Bool := cs.all isBlank

theorem skipBlank_eq_nil_iff (cs : List Char) : skipBlank cs = [] ↔ ∀ c ∈ cs, isBlank c = true := by
  induction cs with
  | nil => simp [skipBlank]
  | cons c cs ih =>
    rw [skipBlank] at ih ⊢
    by_cases hc : isBlank c = true <;> simp [hc, ih]

theorem dropTrailing_eq_nil_iff (cs : List Char) :
    dropTrailing cs = [] ↔ ∀ c ∈ cs, isBlank c = true := by
  rw [dropTrailing, List.reverse_eq_nil_iff, ← skipBlank, skipBlank_eq_nil_iff]
  simp

theorem trim_eq_nil_iff (cs : List Char) : trim cs = [] ↔ ∀ c ∈ cs, isBlank c = true := by
  rw [trim, dropTrailing_eq_nil_iff]
  constructor
  · intro h c hc
    rw [← List.takeWhile_append_dropWhile (p := isBlank) (l := cs), List.mem_append] at hc
    rcases hc with hc | hc
    · exact List.all_eq_true.1 List.all_takeWhile c hc
    · exact h c hc
  · intro h c hc
    exact h c ((List.dropWhile_sublist _).subset hc)

/-! ## Words -/

/-- Adds one character in front of a text that is already split: the word it may still
extend, and the finished words after it. -/
def addChar (c : Char) : List Char × List (List Char) → List Char × List (List Char)
  | (word, rest) =>
    if isBlank c then
      match word with
      | [] => ([], rest)
      | _ :: _ => ([], word :: rest)
    else (c :: word, rest)

/-- The maximal runs of characters that are no blanks. -/
def words (cs : List Char) : List (List Char) :=
  match cs.foldr addChar ([], []) with
  | ([], rest) => rest
  | (word, rest) => word :: rest

private theorem foldr_addChar_blank_free (cs : List Char) :
    (∀ c ∈ (cs.foldr addChar ([], [])).1, isBlank c = false) ∧
      ∀ w ∈ (cs.foldr addChar ([], [])).2, w ≠ [] ∧ ∀ c ∈ w, isBlank c = false := by
  induction cs with
  | nil => simp
  | cons c cs ih =>
    simp only [List.foldr_cons]
    generalize cs.foldr addChar ([], []) = s at ih
    obtain ⟨word, rest⟩ := s
    obtain ⟨hword, hrest⟩ := ih
    by_cases hc : isBlank c = true
    · cases word with
      | nil => simpa [addChar, hc] using hrest
      | cons d ds =>
        refine ⟨by simp [addChar, hc], ?_⟩
        intro w hw
        simp only [addChar, hc, if_true, List.mem_cons] at hw
        rcases hw with rfl | hw
        · exact ⟨by simp, hword⟩
        · exact hrest w hw
    · have hc' : isBlank c = false := by simpa using hc
      refine ⟨?_, by simpa [addChar, hc'] using hrest⟩
      intro d hd
      simp only [addChar, hc', Bool.false_eq_true, if_false, List.mem_cons] at hd
      rcases hd with rfl | hd
      · exact hc'
      · exact hword d hd

/-- No word is empty and no word holds a blank. -/
theorem words_blank_free {cs w : List Char} (h : w ∈ words cs) :
    w ≠ [] ∧ ∀ c ∈ w, isBlank c = false := by
  obtain ⟨h1, h2⟩ := foldr_addChar_blank_free cs
  unfold words at h
  split at h
  · next hs => exact h2 w (by simpa [hs] using h)
  · next word rest hne hs =>
    rw [hs] at h1 h2
    rcases List.mem_cons.1 h with rfl | h
    · exact ⟨by rintro rfl; exact hne rfl, h1⟩
    · exact h2 w h

/-- A text has no words exactly when it says nothing. -/
theorem words_eq_nil_iff (cs : List Char) : words cs = [] ↔ isBlankLine cs = true := by
  have hfold : cs.foldr addChar ([], []) = ([], []) ↔ isBlankLine cs = true := by
    induction cs with
    | nil => simp [isBlankLine]
    | cons c cs ih =>
      rw [isBlankLine, List.all_cons, Bool.and_eq_true, ← isBlankLine, ← ih, List.foldr_cons]
      obtain ⟨word, rest⟩ := cs.foldr addChar ([], [])
      by_cases hc : isBlank c = true <;> cases word <;> simp [addChar, hc]
  rw [← hfold]
  unfold words
  split
  · next rest hs => simp [hs]
  · next word rest hne hs => simp [hs, show word ≠ [] from hne]

/-! ## Names of environment variables -/

/-- A name in which everything but ASCII letters and digits is an underscore. -/
def envName (cs : List Char) : List Char := cs.map fun c => if c.isAlphanum then c else '_'

end Observatory.Text
