import Observatory.Text.Blank
/-!
# Quoted tokens

A token that holds blanks is written between double quotes. Inside the quotes a backslash
protects the quote and itself, and names the three characters that would end or cut a line:
`\n`, `\r` and `\0`.

* `read_encode` — what is written between quotes is read back, whatever follows.
* `encode_line_free` — a quoted token holds no line break and no NUL.
-/

namespace Observatory.Text.Quoted

/-! ## Writing -/

def encodeChar : Char → List Char
  | '"' => ['\\', '"']
  | '\\' => ['\\', '\\']
  | '\n' => ['\\', 'n']
  | '\r' => ['\\', 'r']
  | '\x00' => ['\\', '0']
  | c => [c]

def encode (s : List Char) : List Char := '"' :: (s.flatMap encodeChar ++ ['"'])

/-- A token that may stand without quotes at the head of a line or behind another token: it is
not empty, has no sign in front that could make it a reply code, and holds no blank, control
character, quote or backslash. -/
def isPlain (s : List Char) : Bool :=
  match s with
  | [] => false
  | c :: _ =>
    c != '+' && c != '-' && s.all fun d => !(isBlank d || isControl d || d == '"' || d == '\\')

/-- The token as it is, when it can stand so, and quoted otherwise. -/
def encodeIfNeeded (s : List Char) : List Char := if isPlain s then s else encode s

/-- A token behind another one: only what would split it, hide it or start an escape is quoted. -/
def encodeArgument (s : List Char) : List Char :=
  if s.isEmpty || s.any (fun d => isBlank d || d == '"' || d == '\\') then encode s else s

/-! ## Reading -/

/-- The character that a backslash in front of `c` stands for. -/
def unescape : Char → Char
  | 'n' => '\n'
  | 'r' => '\r'
  | '0' => '\x00'
  | c => c

/-- Reads up to the closing quote, with `acc` the characters read so far, last one first. The
rest is what follows the quote directly; without a closing quote there is no token. -/
def readFrom (acc : List Char) : List Char → Option (List Char × List Char)
  | [] => none
  | '"' :: rest => some (acc.reverse, rest)
  | '\\' :: [] => none
  | '\\' :: c :: rest => readFrom (unescape c :: acc) rest
  | c :: rest => readFrom (c :: acc) rest

/-- Reads the text behind an opening quote. -/
def read (cs : List Char) : Option (List Char × List Char) := readFrom [] cs

theorem readFrom_encodeChar (acc : List Char) (c : Char) (rest : List Char) :
    readFrom acc (encodeChar c ++ rest) = readFrom (c :: acc) rest := by
  unfold encodeChar
  split
  · rfl
  · rfl
  · rfl
  · rfl
  · rfl
  · next h1 h2 _ _ _ =>
    rw [List.singleton_append, readFrom]
    · exact h1
    · intro h; exact absurd h h2
    · intro _ _ h; exact absurd h h2

theorem readFrom_flatMap_encodeChar (acc s rest : List Char) :
    readFrom acc (s.flatMap encodeChar ++ '"' :: rest) = some (acc.reverse ++ s, rest) := by
  induction s generalizing acc with
  | nil => simp [readFrom]
  | cons c s ih =>
    rw [List.flatMap_cons, List.append_assoc, readFrom_encodeChar, ih]
    simp

/-- What is written between quotes is read back, whatever follows. -/
theorem read_encode (s rest : List Char) :
    read ((encode s ++ rest).tail) = some (s, rest) := by
  have h := readFrom_flatMap_encodeChar [] s rest
  simpa [read, encode] using h

theorem mem_encodeChar_line_free {c d : Char} (h : d ∈ encodeChar c) :
    d ≠ '\n' ∧ d ≠ '\r' ∧ d ≠ '\x00' := by
  unfold encodeChar at h
  split at h <;> simp only [List.mem_cons, List.not_mem_nil, or_false] at h
  · rcases h with rfl | rfl <;> decide
  · rcases h with rfl | rfl <;> decide
  · rcases h with rfl | rfl <;> decide
  · rcases h with rfl | rfl <;> decide
  · rcases h with rfl | rfl <;> decide
  · subst h
    exact ⟨by assumption, by assumption, by assumption⟩

/-- A quoted token holds no line break and no NUL. -/
theorem encode_line_free {s : List Char} {d : Char} (h : d ∈ encode s) :
    d ≠ '\n' ∧ d ≠ '\r' ∧ d ≠ '\x00' := by
  simp only [encode, List.mem_cons, List.mem_append, List.mem_flatMap, List.not_mem_nil,
    or_false] at h
  rcases h with rfl | ⟨c, _, hd⟩ | rfl
  · decide
  · exact mem_encodeChar_line_free hd
  · decide

end Observatory.Text.Quoted
