import Observatory.Number.Double
import Observatory.Record.Framing
import Observatory.Text.Escaped
import Observatory.Text.Quoted
/-!
# Texts that fit on one line

A record is a line, so no text inside it may hold a line break. Everything that a peer writes
is built from quoted tokens, escaped text and numbers; none of them holds one.

* `numeral_wireDouble`, `Numeral.oneLine` — numbers on the wire.
* `oneLine_encode`, `oneLine_encodeIfNeeded`, `oneLine_encodeArgument` — tokens.
* `lineFeed_not_mem_encode`, `carriageReturn_not_mem_encode` — the same for the bytes of a text.
-/

namespace Observatory.Text

/-- A text without a line feed and without a carriage return. -/
def OneLine (cs : List Char) : Prop := ∀ c ∈ cs, c ≠ '\n' ∧ c ≠ '\r'

instance (cs : List Char) : Decidable (OneLine cs) :=
  decidable_of_iff (cs.all (fun c => c != '\n' && c != '\r') = true) (by simp [OneLine])

@[simp] theorem oneLine_nil : OneLine [] := by simp [OneLine]

@[simp] theorem oneLine_cons {c : Char} {cs : List Char} :
    OneLine (c :: cs) ↔ (c ≠ '\n' ∧ c ≠ '\r') ∧ OneLine cs := by
  simp [OneLine]

@[simp] theorem oneLine_append {a b : List Char} : OneLine (a ++ b) ↔ OneLine a ∧ OneLine b := by
  simp only [OneLine, List.mem_append]
  exact ⟨fun h => ⟨fun c hc => h c (.inl hc), fun c hc => h c (.inr hc)⟩,
    fun h c hc => hc.elim (h.1 c) (h.2 c)⟩

theorem oneLine_append_space {a b : List Char} :
    OneLine (a ++ ' ' :: b) ↔ OneLine a ∧ OneLine b := by
  rw [oneLine_append, oneLine_cons]
  exact and_congr_right fun _ => and_iff_right (by decide)

theorem oneLine_flatMap {α : Type} {xs : List α} {f : α → List Char}
    (h : ∀ x ∈ xs, OneLine (f x)) : OneLine (xs.flatMap f) := by
  intro c hc
  obtain ⟨x, hx, hcx⟩ := List.mem_flatMap.1 hc
  exact h x hx c hcx

theorem not_lineBreak_of_ink {c : Char} (h : isBlank c = false) : c ≠ '\n' ∧ c ≠ '\r' := by
  constructor <;> rintro rfl <;> exact absurd h (by decide)

theorem oneLine_of_ink {cs : List Char} (h : ∀ c ∈ cs, isBlank c = false) : OneLine cs :=
  fun c hc => not_lineBreak_of_ink (h c hc)

/-! ## Tokens -/

theorem oneLine_encode (s : List Char) : OneLine (Quoted.encode s) :=
  fun _ hc => ⟨(Quoted.encode_line_free hc).1, (Quoted.encode_line_free hc).2.1⟩

theorem oneLine_encodeIfNeeded (s : List Char) : OneLine (Quoted.encodeIfNeeded s) := by
  unfold Quoted.encodeIfNeeded
  split
  · next h =>
    cases s with
    | nil => simp
    | cons c cs =>
      simp only [Quoted.isPlain, Bool.and_eq_true, List.all_eq_true, Bool.not_eq_true',
        Bool.or_eq_false_iff] at h
      exact oneLine_of_ink fun d hd => (h.2 d hd).1.1.1
  · exact oneLine_encode s

theorem oneLine_encodeArgument (s : List Char) : OneLine (Quoted.encodeArgument s) := by
  unfold Quoted.encodeArgument
  split
  · exact oneLine_encode s
  · next h =>
    simp only [Bool.or_eq_true, List.any_eq_true, not_or, not_exists, not_and] at h
    exact oneLine_of_ink fun d hd => by simpa using (h.2 d hd).1.1

theorem oneLine_escaped (s : List Char) : OneLine (Escaped.encode s) := by
  refine oneLine_flatMap fun c _ => ?_
  unfold Escaped.encodeChar
  split
  · decide
  · decide
  · decide
  · decide
  · next h1 h2 _ =>
    simp only [oneLine_cons, oneLine_nil, and_true]
    exact ⟨h2, h1⟩

/-! ## Numbers -/

/-- The characters of numbers: digits, signs, a point, the mark of an exponent, and the letters of
the numbers that are none. -/
def isNumeralChar (c : Char) : Bool := c.isDigit || "+-.einfa".toList.contains c

/-- A text made of the characters of numbers. -/
def Numeral (cs : List Char) : Prop := ∀ c ∈ cs, isNumeralChar c = true

instance (cs : List Char) : Decidable (Numeral cs) :=
  decidable_of_iff (cs.all isNumeralChar = true) List.all_eq_true

@[simp] theorem numeral_cons {c : Char} {cs : List Char} :
    Numeral (c :: cs) ↔ isNumeralChar c = true ∧ Numeral cs := by
  simp [Numeral]

@[simp] theorem numeral_append {a b : List Char} : Numeral (a ++ b) ↔ Numeral a ∧ Numeral b := by
  simp only [Numeral, List.mem_append]
  exact ⟨fun h => ⟨fun c hc => h c (.inl hc), fun c hc => h c (.inr hc)⟩,
    fun h c hc => hc.elim (h.1 c) (h.2 c)⟩

theorem isBlank_of_isDigit {c : Char} (h : c.isDigit = true) : isBlank c = false := by
  simp only [Char.isDigit, Bool.and_eq_true, decide_eq_true_eq, ge_iff_le,
    UInt32.le_iff_toNat_le] at h
  have h1 : 48 ≤ c.toNat := h.1
  have h2 : c.toNat ≤ 57 := h.2
  rw [← Bool.not_eq_true]
  simp only [isBlank, blankRanges, List.any_cons, List.any_nil, Bool.or_eq_true, Bool.and_eq_true,
    decide_eq_true_eq, Bool.false_eq_true, or_false]
  omega

theorem isBlank_of_isNumeralChar {c : Char} (h : isNumeralChar c = true) : isBlank c = false := by
  rcases Bool.or_eq_true_iff.1 h with h | h
  · exact isBlank_of_isDigit h
  · have hall : "+-.einfa".toList.all (fun d => !isBlank d) = true := by decide
    simpa using List.all_eq_true.1 hall c (by simpa using h)

theorem Numeral.oneLine {cs : List Char} (h : Numeral cs) : OneLine cs :=
  oneLine_of_ink fun c hc => isBlank_of_isNumeralChar (h c hc)

theorem numeral_natText (n : Nat) : Numeral (Number.natText n) := fun c hc => by
  simp [isNumeralChar, List.all_eq_true.1 (Number.all_isDigit_natText n) c hc]

theorem numeral_intText (i : Int) : Numeral (Number.intText i) := by
  cases i with
  | ofNat n => exact numeral_natText n
  | negSucc n => exact numeral_cons.2 ⟨by decide, numeral_natText (n + 1)⟩

theorem numeral_replicate_zero (n : Nat) : Numeral (List.replicate n '0') := by
  intro c hc
  rw [List.eq_of_mem_replicate hc]
  decide

theorem numeral_signedCode (i : Int) : Numeral (Number.signedCode i) := by
  refine numeral_cons.2 ⟨?_, numeral_append.2 ⟨numeral_replicate_zero _, numeral_natText _⟩⟩
  split <;> decide

theorem numeral_scientific {digits : List Char} (h : Numeral digits) (exponent : Int) :
    Numeral (Number.scientific digits exponent) := by
  unfold Number.scientific
  refine numeral_append.2 ⟨?_, numeral_cons.2 ⟨by decide, numeral_intText _⟩⟩
  split
  · next d e ds =>
    simp only [numeral_cons] at h ⊢
    exact ⟨h.1, by decide, h.2.1, h.2.2⟩
  · exact h

theorem numeral_fixedScientific (places m : Nat) (q : Int) :
    Numeral (Number.fixedScientific places m q) := by
  unfold Number.fixedScientific
  split
  · rw [List.cons_append, List.cons_append, numeral_cons, numeral_cons, numeral_append]
    exact ⟨by decide, by decide, numeral_replicate_zero _, by decide⟩
  · dsimp only
    split
    · exact numeral_scientific (numeral_natText _) _
    · exact numeral_scientific (numeral_natText _) _

theorem numeral_withSign (negative : Bool) {cs : List Char} (h : Numeral cs) :
    Numeral (Number.withSign negative cs) := by
  cases negative
  · exact h
  · exact numeral_cons.2 ⟨by decide, h⟩

theorem numeral_wireDouble (x : Float) : Numeral (Number.wireDouble x) := by
  unfold Number.wireDouble
  split
  · decide
  · exact numeral_withSign _ (by decide)
  · exact numeral_withSign _ (numeral_fixedScientific _ _ _)

theorem numeral_wireSingle (x : Float32) : Numeral (Number.wireSingle x) := by
  unfold Number.wireSingle
  split
  · decide
  · exact numeral_wireDouble x.toFloat

/-! ## Bytes -/

theorem Utf8.encode_ofList (cs : List Char) :
    Utf8.encode (String.ofList cs) = cs.flatMap String.utf8EncodeChar := by
  simp [Utf8.encode, String.toUTF8, List.utf8Encode]

/-- A byte below 128 stands for the character of that code and for nothing else. -/
theorem Utf8.toNat_eq_of_mem {c : Char} {b : UInt8} (h : b ∈ String.utf8EncodeChar c)
    (hb : b.toNat < 128) : c.toNat = b.toNat := by
  unfold String.utf8EncodeChar at h
  dsimp only at h
  split at h
  · next hv =>
    have hc : c.val.toNat < 256 := by omega
    rw [List.mem_singleton.1 h, UInt8.toNat_ofNat', Nat.mod_eq_of_lt hc]
    rfl
  · -- every byte of a longer form has its highest bit set
    exfalso
    split at h
    · simp only [List.mem_cons, List.not_mem_nil, or_false] at h
      rcases h with rfl | rfl <;> simp only [UInt8.toNat_ofNat'] at hb <;> omega
    · split at h
      · simp only [List.mem_cons, List.not_mem_nil, or_false] at h
        rcases h with rfl | rfl | rfl <;> simp only [UInt8.toNat_ofNat'] at hb <;> omega
      · simp only [List.mem_cons, List.not_mem_nil, or_false] at h
        rcases h with rfl | rfl | rfl | rfl <;> simp only [UInt8.toNat_ofNat'] at hb <;> omega

theorem Utf8.not_mem_encode {cs : List Char} {b : UInt8} (hb : b.toNat < 128)
    (h : ∀ c ∈ cs, c.toNat ≠ b.toNat) : b ∉ Utf8.encode (String.ofList cs) := by
  rw [Utf8.encode_ofList]
  intro hmem
  obtain ⟨c, hc, hbc⟩ := List.mem_flatMap.1 hmem
  exact h c hc (Utf8.toNat_eq_of_mem hbc hb)

theorem OneLine.lineFeed_not_mem_encode {cs : List Char} (h : OneLine cs) :
    lineFeed ∉ Utf8.encode (String.ofList cs) := by
  refine Utf8.not_mem_encode (by decide) fun c hc hn => (h c hc).1 ?_
  exact Char.toNat_inj.1 hn

theorem OneLine.carriageReturn_not_mem_encode {cs : List Char} (h : OneLine cs) :
    carriageReturn ∉ Utf8.encode (String.ofList cs) := by
  refine Utf8.not_mem_encode (by decide) fun c hc hn => (h c hc).2 ?_
  exact Char.toNat_inj.1 hn

end Observatory.Text
