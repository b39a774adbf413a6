import Observatory.ParseError
import Observatory.Text.Quoted
/-!
# Tokens of a record

A record is read token by token. A token is either a run of characters without blanks or, when
it starts with a double quote, the text up to the closing quote; what follows a closing quote
belongs to the next token, even without a blank between them.

Each reader takes the text that is left and gives what it read together with the text left
after it. A failed reader leaves the text where it was; `skip` says where the reader of one
token stops, whatever is then made of the token.

* `next_encode`, `next_encodeIfNeeded`, `next_encodeArgument` — a written token is read back.
-/

namespace Observatory.Token

open Text

/-! ## Readers -/

/-- True when nothing but blanks is left. -/
def atEnd (rest : List Char) : Bool := isBlankLine rest

/-- The next token and the text behind it. -/
def next (rest : List Char) : Except ParseError (List Char × List Char) :=
  match skipBlank rest with
  | [] => .error .missingParameter
  | '"' :: body =>
    match Quoted.read body with
    | some read => .ok read
    | none => .error .unterminatedQuote
  | c :: cs => .ok ((c :: cs).takeWhile isInk, (c :: cs).dropWhile isInk)

/-- The text behind the next token, or all of it when there is none. -/
def skip (rest : List Char) : List Char :=
  match next rest with
  | .ok (_, rest) => rest
  | .error _ => rest

/-- The next token, read by `convert`. -/
def nextAs {α : Type} (convert : List Char → Except ParseError α) (rest : List Char) :
    Except ParseError (α × List Char) := do
  let (token, rest) ← next rest
  let value ← convert token
  return (value, rest)

def nextString (rest : List Char) : Except ParseError (String × List Char) :=
  nextAs (fun token => .ok (String.ofList token)) rest

/-- Everything left, without the blanks at its ends. -/
def remainder (rest : List Char) : List Char := trim rest

/-- Everything left behind one separator, a space or a tab, with its own spacing. -/
def tail : List Char → List Char
  | ' ' :: cs => cs
  | '\t' :: cs => cs
  | cs => cs

/-- Nothing may be left. -/
def finish (rest : List Char) : Except ParseError Unit :=
  if atEnd rest then .ok () else .error (.trailingParameter (String.ofList (trim rest)))

/-- Free text up to the end of the line: a single quoted token, or all that is left. -/
def text (rest : List Char) : Except ParseError (List Char) :=
  match skipBlank rest with
  | '"' :: _ => do
    let (token, rest) ← next rest
    finish rest
    return token
  | _ => .ok (remainder rest)

/-! ## Conversions of one token -/

def toInt32 (token : List Char) : Except ParseError Int32 :=
  match Number.readInt32 token with
  | some v => .ok v
  | none => .error (.invalidInteger (String.ofList token))

def toInt64 (token : List Char) : Except ParseError Int64 :=
  match Number.readInt64 token with
  | some v => .ok v
  | none => .error (.invalidInteger (String.ofList token))

def toUInt32 (token : List Char) : Except ParseError UInt32 :=
  match Number.readUInt32 token with
  | some v => .ok v
  | none => .error (.invalidInteger (String.ofList token))

def toDouble (token : List Char) : Except ParseError Float :=
  match Number.readDouble token with
  | some v => .ok v
  | none => .error (.invalidNumber (String.ofList token))

def toSingle (token : List Char) : Except ParseError Float32 :=
  match Number.readSingle token with
  | some v => .ok v
  | none => .error (.invalidNumber (String.ofList token))

/-- One of eight words, in any case. -/
def toBool (token : List Char) : Except ParseError Bool :=
  let word := String.ofList (Number.lowerAscii token)
  if word = "on" || word = "true" || word = "yes" || word = "1" then .ok true
  else if word = "off" || word = "false" || word = "no" || word = "0" then .ok false
  else .error (.invalidBool (String.ofList token))

/-! ## A written token is read back -/

theorem skipBlank_of_ink {c : Char} {cs : List Char} (h : isBlank c = false) :
    skipBlank (c :: cs) = c :: cs := by
  simp [skipBlank, h]

theorem next_encode (s rest : List Char) :
    next (Quoted.encode s ++ rest) = .ok (s, rest) := by
  have h := Quoted.read_encode s rest
  have hq : skipBlank (Quoted.encode s ++ rest) = '"' :: (Quoted.encode s ++ rest).tail := by
    rw [Quoted.encode, List.cons_append, skipBlank_of_ink (by decide)]
    rfl
  unfold next
  rw [hq]
  simp only [h]

/-- A token of ink characters ends where a blank follows, or at the end of the line. -/
theorem next_of_ink {c : Char} {cs rest : List Char} (hq : c ≠ '"')
    (hink : ∀ d ∈ c :: cs, isBlank d = false) (hrest : ∀ d ∈ rest.head?, isBlank d = true) :
    next (c :: cs ++ rest) = .ok (c :: cs, rest) := by
  have hc : isBlank c = false := hink c (by simp)
  have hall : ∀ d ∈ c :: cs, isInk d = true := fun d hd => by simp [isInk, hink d hd]
  have hstop : rest.takeWhile isInk = [] ∧ rest.dropWhile isInk = rest := by
    cases rest with
    | nil => simp
    | cons d ds =>
      have hd : isBlank d = true := hrest d (by simp)
      simp [isInk, hd]
  unfold next
  rw [List.cons_append, skipBlank_of_ink hc]
  split
  · next h => simp at h
  · next h => exact absurd (List.cons.inj h).1 hq
  · next h =>
    obtain ⟨rfl, rfl⟩ := List.cons.inj h
    rw [← List.cons_append, List.takeWhile_append_of_pos hall, List.dropWhile_append_of_pos hall,
      hstop.1, hstop.2, List.append_nil]

theorem next_encodeIfNeeded (s : List Char) {rest : List Char}
    (hrest : ∀ d ∈ rest.head?, isBlank d = true) :
    next (Quoted.encodeIfNeeded s ++ rest) = .ok (s, rest) := by
  unfold Quoted.encodeIfNeeded
  split
  · next h =>
    cases s with
    | nil => simp [Quoted.isPlain] at h
    | cons c cs =>
      simp only [Quoted.isPlain, Bool.and_eq_true, List.all_eq_true, Bool.not_eq_true',
        Bool.or_eq_false_iff, beq_eq_false_iff_ne] at h
      refine next_of_ink (h.2 c (by simp)).1.2 (fun d hd => ?_) hrest
      exact (h.2 d hd).1.1.1
  · exact next_encode s rest

theorem next_encodeArgument (s : List Char) {rest : List Char}
    (hrest : ∀ d ∈ rest.head?, isBlank d = true) :
    next (Quoted.encodeArgument s ++ rest) = .ok (s, rest) := by
  unfold Quoted.encodeArgument
  split
  · exact next_encode s rest
  · next h =>
    cases s with
    | nil => simp at h
    | cons c cs =>
      simp only [List.isEmpty_cons, Bool.false_or, List.any_eq_true, not_exists, not_and,
        Bool.or_eq_true, beq_iff_eq, not_or] at h
      refine next_of_ink (h c (by simp)).1.2 (fun d hd => ?_) hrest
      simpa using (h d hd).1.1

end Observatory.Token
