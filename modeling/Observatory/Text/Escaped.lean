/-!
# Escaped text

The free text that ends a message record keeps its own spacing, so it is not quoted: only the
backslash and the characters that would end or cut the line are escaped.

* `decode_encode` — reading undoes writing.
-/

namespace Observatory.Text.Escaped

/-- One character as it stands in escaped text. -/
def encodeChar : Char → List Char
  | '\\' => ['\\', '\\']
  | '\r' => ['\\', 'r']
  | '\n' => ['\\', 'n']
  | '\x00' => ['\\', '0']
  | c => [c]

/-- The text with its backslashes and line breaks escaped. -/
def encode (s : List Char) : List Char := s.flatMap encodeChar

/-- Reads escaped text, with `acc` the characters read so far, last one first. A backslash in
front of any other character, or at the end, stands for itself. -/
def decodeFrom (acc : List Char) : List Char → List Char
  | [] => acc.reverse
  | '\\' :: 'r' :: rest => decodeFrom ('\r' :: acc) rest
  | '\\' :: 'n' :: rest => decodeFrom ('\n' :: acc) rest
  | '\\' :: '0' :: rest => decodeFrom ('\x00' :: acc) rest
  | '\\' :: '\\' :: rest => decodeFrom ('\\' :: acc) rest
  | '\\' :: c :: rest => decodeFrom (c :: '\\' :: acc) rest
  | c :: rest => decodeFrom (c :: acc) rest

def decode (s : List Char) : List Char := decodeFrom [] s

theorem decodeFrom_encodeChar (acc : List Char) (c : Char) (rest : List Char) :
    decodeFrom acc (encodeChar c ++ rest) = decodeFrom (c :: acc) rest := by
  unfold encodeChar
  split
  · rfl
  · rfl
  · rfl
  · rfl
  · next h _ _ _ =>
    rw [List.singleton_append, decodeFrom] <;> intros <;> simp_all

theorem decodeFrom_encode (acc s : List Char) : decodeFrom acc (encode s) = acc.reverse ++ s := by
  induction s generalizing acc with
  | nil => simp [encode, decodeFrom]
  | cons c s ih =>
    have h : encode (c :: s) = encodeChar c ++ encode s := by simp [encode]
    rw [h, decodeFrom_encodeChar, ih]
    simp

theorem decode_encode (s : List Char) : decode (encode s) = s := by
  simp [decode, decodeFrom_encode]

end Observatory.Text.Escaped
