import Observatory.Proofs.Text.OneLine
import Observatory.Token
/-!
# Written tokens

The tokens of a written record stand behind one space each. What is proved here is what the
readers of a record make of them.

* `Bare`, `next_bare` — a token without quotes is read as it is.
* `nextAs_bare`, `nextString_encode`, `nextString_encodeIfNeeded` — one written parameter.
* `remainder_space`, `text_encode` — what ends a record.
-/

namespace Observatory.Text

/-- A text without blanks at its ends. -/
def Trimmed (cs : List Char) : Prop := trim cs = cs

instance (cs : List Char) : Decidable (Trimmed cs) := inferInstanceAs (Decidable (trim cs = cs))

theorem skipBlank_cons {c : Char} (h : isBlank c = true) (cs : List Char) :
    skipBlank (c :: cs) = skipBlank cs := by
  simp [skipBlank, h]

theorem trim_cons {c : Char} (h : isBlank c = true) (cs : List Char) :
    trim (c :: cs) = trim cs := by
  rw [trim, skipBlank_cons h, trim]

/-- A text that neither starts nor ends with a blank. -/
theorem trimmed_of_ends {cs : List Char} (hhead : ∀ c ∈ cs.head?, isBlank c = false)
    (hlast : ∀ c ∈ cs.getLast?, isBlank c = false) : Trimmed cs := by
  have hskip : skipBlank cs = cs := by
    cases cs with
    | nil => rfl
    | cons c cs => simp [skipBlank, hhead c (by simp)]
  rw [Trimmed, trim, hskip, dropTrailing, List.reverse_eq_iff]
  cases hr : cs.reverse with
  | nil => rfl
  | cons c rs =>
    have hc : isBlank c = false := hlast c (by rw [← List.head?_reverse, hr]; rfl)
    rw [List.dropWhile_cons_of_neg (by simp [hc])]

end Observatory.Text

namespace Observatory.Token

open Text

/-! ## Bare tokens -/

/-- A token that stands without quotes. -/
structure Bare (w : List Char) : Prop where
  nonempty : w ≠ []
  unquoted : w.head? ≠ some '"'
  ink : ∀ c ∈ w, isBlank c = false

instance (w : List Char) : Decidable (Bare w) :=
  decidable_of_iff ((!w.isEmpty && w.head? != some '"' && w.all fun c => !isBlank c) = true) (by
    simp only [Bool.and_eq_true, Bool.not_eq_true', List.isEmpty_eq_false_iff, bne_iff_ne,
      List.all_eq_true]
    exact ⟨fun h => ⟨h.1.1, h.1.2, h.2⟩, fun h => ⟨⟨h.nonempty, h.unquoted⟩, h.ink⟩⟩)

/-- What follows a bare token starts with a blank, or nothing follows. -/
def EndsToken (rest : List Char) : Prop := ∀ d ∈ rest.head?, isBlank d = true

@[simp] theorem endsToken_nil : EndsToken [] := by simp [EndsToken]

@[simp] theorem endsToken_space (cs : List Char) : EndsToken (' ' :: cs) := by
  simp only [EndsToken, List.head?_cons, Option.mem_def, Option.some.injEq]
  rintro d rfl
  decide

theorem Bare.not_all_blank {w : List Char} (h : Bare w) (rest : List Char) :
    isBlankLine (w ++ rest) = false := by
  obtain ⟨c, cs, rfl⟩ := List.exists_cons_of_ne_nil h.nonempty
  simp [isBlankLine, h.ink c (by simp)]

theorem next_bare {w : List Char} (h : Bare w) {rest : List Char} (hrest : EndsToken rest) :
    next (w ++ rest) = .ok (w, rest) := by
  obtain ⟨c, cs, rfl⟩ := List.exists_cons_of_ne_nil h.nonempty
  exact next_of_ink (by simpa using h.unquoted) h.ink hrest

theorem Numeral.bare {w : List Char} (hne : w ≠ []) (h : Numeral w) : Bare w := by
  refine ⟨hne, fun hq => ?_, fun c hc => isBlank_of_isNumeralChar (h c hc)⟩
  exact absurd (h '"' (List.mem_of_mem_head? hq)) (by decide)

theorem bare_natText (n : Nat) : Bare (Number.natText n) :=
  Numeral.bare Nat.toDigits_ne_nil (numeral_natText n)

theorem bare_intText (i : Int) : Bare (Number.intText i) := by
  refine Numeral.bare ?_ (numeral_intText i)
  cases i with
  | ofNat n => exact Nat.toDigits_ne_nil
  | negSucc n => simp [Number.intText]

theorem bare_signedCode (i : Int) : Bare (Number.signedCode i) :=
  Numeral.bare (by simp [Number.signedCode]) (numeral_signedCode i)

/-! ## Parameters -/

theorem next_space (cs : List Char) : next (' ' :: cs) = next cs := by
  unfold next
  rw [skipBlank_cons (by decide)]

section
variable {α : Type} {convert : List Char → Except ParseError α} {v : α}

theorem nextAs_space (cs : List Char) : nextAs convert (' ' :: cs) = nextAs convert cs := by
  unfold nextAs
  rw [next_space]

theorem nextAs_of_next {cs token rest : List Char} (hnext : next cs = .ok (token, rest))
    (hconvert : convert token = .ok v) : nextAs convert cs = .ok (v, rest) := by
  unfold nextAs
  rw [hnext]
  show (convert token >>= fun value => pure (value, rest)) = _
  rw [hconvert]
  rfl

theorem nextAs_bare {w rest : List Char} (h : Bare w) (hconvert : convert w = .ok v)
    (hrest : EndsToken rest) : nextAs convert (w ++ rest) = .ok (v, rest) :=
  nextAs_of_next (next_bare h hrest) hconvert

end

theorem nextString_space (cs : List Char) : nextString (' ' :: cs) = nextString cs :=
  nextAs_space cs

theorem nextString_encode (s : String) (rest : List Char) :
    nextString (Quoted.encode s.toList ++ rest) = .ok (s, rest) :=
  nextAs_of_next (next_encode _ _) (by rw [String.ofList_toList])

theorem nextString_encodeIfNeeded (s : String) {rest : List Char} (hrest : EndsToken rest) :
    nextString (Quoted.encodeIfNeeded s.toList ++ rest) = .ok (s, rest) :=
  nextAs_of_next (next_encodeIfNeeded _ hrest) (by rw [String.ofList_toList])

theorem toUInt32_natText (v : UInt32) : toUInt32 (Number.natText v.toNat) = .ok v := by
  rw [toUInt32, Number.readUInt32_natText]

theorem toInt32_intText (v : Int32) : toInt32 (Number.intText v.toInt) = .ok v := by
  rw [toInt32, Number.readInt32_intText]

theorem toInt64_intText (v : Int64) : toInt64 (Number.intText v.toInt) = .ok v := by
  rw [toInt64, Number.readInt64_intText]

theorem nextAs_natText (v : UInt32) {rest : List Char} (hrest : EndsToken rest) :
    nextAs toUInt32 (Number.natText v.toNat ++ rest) = .ok (v, rest) :=
  nextAs_bare (bare_natText _) (toUInt32_natText v) hrest

/-! ## Codes of replies -/

theorem ofDigitChars_replicate_zero (n : Nat) (cs : List Char) :
    Nat.ofDigitChars 10 (List.replicate n '0' ++ cs) 0 = Nat.ofDigitChars 10 cs 0 := by
  induction n with
  | zero => rfl
  | succ n ih =>
    rw [List.replicate_succ, List.cons_append, Nat.ofDigitChars_cons]
    exact ih

theorem all_isDigit_padZeros (width n : Nat) :
    (Number.padZeros width (Number.natText n)).all Char.isDigit = true := by
  rw [Number.padZeros, List.all_append, Number.all_isDigit_natText, Bool.and_true]
  exact List.all_eq_true.2 fun c hc => by rw [List.eq_of_mem_replicate hc]; decide

theorem readNat_padZeros (width n : Nat) :
    Number.readNat (Number.padZeros width (Number.natText n)) = some n := by
  have hne : Number.padZeros width (Number.natText n) ≠ [] := by
    simp [Number.padZeros, Number.natText, Nat.toDigits_ne_nil]
  rw [Number.readNat, if_pos ⟨hne, all_isDigit_padZeros width n⟩, Number.padZeros,
    ofDigitChars_replicate_zero, Number.natText, Nat.ofDigitChars_ten_toDigits]

theorem readInt_signedCode (i : Int) : Number.readInt (Number.signedCode i) = some i := by
  unfold Number.signedCode
  by_cases hi : i < 0
  · rw [if_pos hi]
    show (Number.readNat _).map (fun n => -Int.ofNat n) = _
    rw [readNat_padZeros, Option.map_some]
    congr 1
    show -(i.natAbs : Int) = i
    omega
  · rw [if_neg hi]
    show (Number.readNat _).map Int.ofNat = _
    rw [readNat_padZeros, Option.map_some]
    congr 1
    show (i.natAbs : Int) = i
    omega

theorem toInt32_signedCode (code : Int32) :
    toInt32 (Number.signedCode code.toInt) = .ok code := by
  simp only [toInt32, Number.readInt32, readInt_signedCode, Option.bind_some,
    Number.int32?_toInt]

/-! ## What ends a record -/

theorem remainder_space (cs : List Char) : remainder (' ' :: cs) = trim cs :=
  trim_cons (by decide) cs

theorem text_encode (s : List Char) : text (' ' :: Quoted.encode s) = .ok s := by
  unfold text
  rw [skipBlank_cons (by decide), Quoted.encode, skipBlank_of_ink (by decide)]
  show (next (' ' :: Quoted.encode s) >>= fun p => finish p.2 >>= fun _ => pure p.1) = _
  have h := next_encode s []
  rw [List.append_nil] at h
  rw [next_space, h]
  rfl

end Observatory.Token
