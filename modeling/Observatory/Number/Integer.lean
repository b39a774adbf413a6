/-!
# Whole numbers in text

Decimal whole numbers as tokens carry them: an optional sign and at least one ASCII digit,
and nothing else. A reader gives the number itself; whether it fits a word of 32 or 64 bits
is asked afterwards.

* `readNat_natText`, `readInt_intText` — what is printed is read back.
* `int32?_toInt`, `int64?_toInt` — every word fits its own width.
-/

namespace Observatory.Number

/-! ## Reading -/

/-- The number that a non-empty run of ASCII digits stands for. -/
def readNat (cs : List Char) : Option Nat :=
  if cs ≠ [] ∧ cs.all Char.isDigit then some (Nat.ofDigitChars 10 cs 0) else none

/-- A natural number with an optional plus sign. -/
def readUnsigned : List Char → Option Nat
  | '+' :: cs => readNat cs
  | cs => readNat cs

/-- A whole number with an optional sign. -/
def readInt : List Char → Option Int
  | '+' :: cs => (readNat cs).map Int.ofNat
  | '-' :: cs => (readNat cs).map fun n => -Int.ofNat n
  | cs => (readNat cs).map Int.ofNat

/-! ## Words -/

/-- The number as a signed word of 32 bits, if it fits. -/
def int32? (i : Int) : Option Int32 :=
  if h : Int32.minValue.toInt ≤ i ∧ i ≤ Int32.maxValue.toInt then some (Int32.ofIntLE i h.1 h.2)
  else none

def int64? (i : Int) : Option Int64 :=
  if h : Int64.minValue.toInt ≤ i ∧ i ≤ Int64.maxValue.toInt then some (Int64.ofIntLE i h.1 h.2)
  else none

def uint32? (n : Nat) : Option UInt32 :=
  if h : n < UInt32.size then some (UInt32.ofNatLT n h) else none

def readInt32 (cs : List Char) : Option Int32 := (readInt cs).bind int32?

def readInt64 (cs : List Char) : Option Int64 := (readInt cs).bind int64?

def readUInt32 (cs : List Char) : Option UInt32 := (readUnsigned cs).bind uint32?

/-! ## Writing -/

/-- Decimal digits, without leading zeros. -/
def natText (n : Nat) : List Char := Nat.toDigits 10 n

/-- Decimal digits with a minus sign in front of a negative number. -/
def intText : Int → List Char
  | .ofNat n => natText n
  | .negSucc n => '-' :: natText (n + 1)

/-- The text with zeros in front up to the given width. -/
def padZeros (width : Nat) (cs : List Char) : List Char :=
  List.replicate (width - cs.length) '0' ++ cs

/-- Always a sign, then at least three digits. -/
def signedCode (i : Int) : List Char :=
  (if i < 0 then '-' else '+') :: padZeros 3 (natText i.natAbs)

/-- Hexadecimal digits in lower case behind `0x`, at least `width` of them. -/
def hexText (width n : Nat) : List Char := '0' :: 'x' :: padZeros width (Nat.toDigits 16 n)

/-! ## What is printed is read back -/

theorem all_isDigit_natText (n : Nat) : (natText n).all Char.isDigit = true :=
  List.all_eq_true.2 fun _ h => Nat.isDigit_of_mem_toDigits (by decide) (by decide) h

theorem readNat_natText (n : Nat) : readNat (natText n) = some n := by
  rw [readNat, if_pos ⟨Nat.toDigits_ne_nil, all_isDigit_natText n⟩, natText,
    Nat.ofDigitChars_ten_toDigits]

/-- No decimal numeral starts with a sign. -/
theorem natText_head_isDigit {n : Nat} {c : Char} {cs : List Char} (h : natText n = c :: cs) :
    c.isDigit = true :=
  List.all_eq_true.1 (all_isDigit_natText n) c (by simp [h])

theorem readUnsigned_natText (n : Nat) : readUnsigned (natText n) = some n := by
  have h := readNat_natText n
  match hs : natText n, h with
  | '+' :: cs, _ => exact absurd (natText_head_isDigit hs) (by decide)
  | [], h => exact h
  | c :: cs, h =>
    unfold readUnsigned
    split
    · next heq =>
      have hc : c = '+' := (List.cons.inj heq).1
      subst hc
      exact absurd (natText_head_isDigit hs) (by decide)
    · exact h

theorem readInt_natText (n : Nat) : readInt (natText n) = some (Int.ofNat n) := by
  have h := readNat_natText n
  match hs : natText n, h with
  | [], h => simpa [readInt] using congrArg (Option.map Int.ofNat) h
  | c :: cs, h =>
    unfold readInt
    split
    · next heq =>
      have hc : c = '+' := (List.cons.inj heq).1
      subst hc
      exact absurd (natText_head_isDigit hs) (by decide)
    · next heq =>
      have hc : c = '-' := (List.cons.inj heq).1
      subst hc
      exact absurd (natText_head_isDigit hs) (by decide)
    · rw [h]; rfl

theorem readInt_intText (i : Int) : readInt (intText i) = some i := by
  cases i with
  | ofNat n => exact readInt_natText n
  | negSucc n =>
    show (readNat (natText (n + 1))).map (fun n => -Int.ofNat n) = _
    rw [readNat_natText]
    rfl

theorem int32?_toInt (v : Int32) : int32? v.toInt = some v := by
  rw [int32?, dif_pos ⟨Int32.minValue_le_toInt v, Int32.toInt_le v⟩, Int32.ofIntLE_toInt]

theorem int64?_toInt (v : Int64) : int64? v.toInt = some v := by
  rw [int64?, dif_pos ⟨Int64.minValue_le_toInt v, Int64.toInt_le v⟩, Int64.ofIntLE_toInt]

theorem uint32?_toNat (v : UInt32) : uint32? v.toNat = some v := by
  rw [uint32?, dif_pos (UInt32.toNat_lt_size v), UInt32.ofNatLT_toNat]

theorem readInt32_intText (v : Int32) : readInt32 (intText v.toInt) = some v := by
  simp [readInt32, readInt_intText, int32?_toInt]

theorem readInt64_intText (v : Int64) : readInt64 (intText v.toInt) = some v := by
  simp [readInt64, readInt_intText, int64?_toInt]

theorem readUInt32_natText (v : UInt32) : readUInt32 (natText v.toNat) = some v := by
  simp [readUInt32, readUnsigned_natText, uint32?_toNat]

end Observatory.Number
