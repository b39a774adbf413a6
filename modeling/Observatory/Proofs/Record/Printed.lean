import Observatory.Proofs.Record.RoundTrip
/-!
# Records that were read, printed

A line may be spelled in many ways: with more blanks, with quotes that it could do without, with
the long form of an operator. What is printed of the record is one of them, and it is read as the
same record, unless the line spelled the opcode of a command in a way that only quotes allow.

* `Text.trimmed_trim`, `Token.bare_or_long` — what the readers of a line leave and what they take.
* `Record.IsTidy`, `Record.isTidy_of_parseBody` — what is true of every record that was read.
* `Record.parse_toLine_iff` — the printed line is read as the record exactly when the opcode, if
  it has one, can stand without quotes.
-/

namespace Observatory

/-! ## Trimmed texts -/

namespace Text

theorem exists_dropTrailing_append (cs : List Char) : ∃ blanks, dropTrailing cs ++ blanks = cs := by
  have h := congrArg List.reverse (List.takeWhile_append_dropWhile (p := isBlank) (l := cs.reverse))
  rw [List.reverse_append, List.reverse_reverse] at h
  exact ⟨_, h⟩

theorem isBlank_of_head?_skipBlank (cs : List Char) {c : Char} (h : c ∈ (skipBlank cs).head?) :
    isBlank c = false := by
  have hnot := List.head?_dropWhile_not isBlank cs
  rw [skipBlank] at h
  rw [show (cs.dropWhile isBlank).head? = some c from h] at hnot
  exact hnot

/-- What is left of a trimmed text has no more blanks to lose. -/
theorem trimmed_trim (cs : List Char) : Trimmed (trim cs) := by
  refine trimmed_of_ends (fun c hc => ?_) (fun c hc => ?_)
  · obtain ⟨blanks, hsplit⟩ := exists_dropTrailing_append (skipBlank cs)
    refine isBlank_of_head?_skipBlank cs ?_
    rw [← hsplit, List.head?_append]
    rw [trim] at hc
    rw [show (dropTrailing (skipBlank cs)).head? = some c from hc]
    rfl
  · rw [trim, dropTrailing, List.getLast?_reverse] at hc
    exact isBlank_of_head?_skipBlank (skipBlank cs).reverse hc

theorem length_trim_le (cs : List Char) : (trim cs).length ≤ cs.length := by
  obtain ⟨blanks, hsplit⟩ := exists_dropTrailing_append (skipBlank cs)
  have hskip : (skipBlank cs).length ≤ cs.length := (List.dropWhile_sublist _).length_le
  have hlength := congrArg List.length hsplit
  rw [List.length_append] at hlength
  rw [trim]
  omega

/-- A quoted token is shorter than the text it is read from. -/
theorem Quoted.length_of_readFrom {acc cs token rest : List Char}
    (h : readFrom acc cs = some (token, rest)) :
    token.length + rest.length < acc.length + cs.length := by
  fun_induction readFrom acc cs with
  | case1 => cases h
  | case2 acc behind =>
    cases h
    simp
  | case3 => cases h
  | case4 acc c behind ih =>
    have hlength := ih h
    simp only [List.length_cons] at hlength ⊢
    omega
  | case5 acc c behind _ _ _ ih =>
    have hlength := ih h
    simp only [List.length_cons] at hlength ⊢
    omega

end Text

/-! ## Tokens -/

namespace Token

open Text (isBlank isInk)

/-- A token could stand without quotes, or it stands between two of them. -/
theorem bare_or_long {cs token rest : List Char} (h : next cs = .ok (token, rest)) :
    Bare token ∨ token.length + rest.length + 2 ≤ cs.length := by
  have hskip : (Text.skipBlank cs).length ≤ cs.length := (List.dropWhile_sublist _).length_le
  unfold next at h
  split at h
  · cases h
  · next body hbody =>
    right
    split at h
    · next read hread =>
      cases h
      have hlength := Text.Quoted.length_of_readFrom hread
      rw [hbody, List.length_cons] at hskip
      rw [List.length_nil] at hlength
      omega
    · cases h
  · next c behind hquote hink =>
    left
    cases h
    have hc : isInk c = true := by
      have hhead : c ∈ (Text.skipBlank cs).head? := by rw [hink]; rfl
      simp [isInk, Text.isBlank_of_head?_skipBlank cs hhead]
    have htake : (c :: behind).takeWhile isInk = c :: behind.takeWhile isInk :=
      List.takeWhile_cons_of_pos hc
    refine ⟨by rw [htake]; simp, fun hhead => ?_, fun d hd => ?_⟩
    · rw [htake] at hhead
      exact hquote (Option.some.inj hhead)
    · have hd := List.all_eq_true.1 List.all_takeWhile d hd
      simpa [isInk] using hd

end Token

/-! ## What was read -/

namespace Record

open Text (Trimmed trimmed_trim)
open Token (Bare)

/-- A line that is read has a first token, which says how the rest is read. -/
theorem exists_next_of_parse {line : String} {r : Record} (h : parse line = .ok r) :
    ∃ word rest, Token.next line.toList = .ok (word, rest) ∧ parseBody word rest = .ok r := by
  unfold parse parseChars at h
  split at h
  · cases h
  · obtain ⟨⟨word, rest⟩, hnext, h⟩ := exists_of_bind h
    exact ⟨word, rest, hnext, h⟩

/-- Every record that was read: texts that run to the end of the line lost the blanks at their
ends, a change is by something, and the opcode of a command stands for nothing else. -/
def IsTidy : Record → Prop
  | value _ text => Trimmed text.toList
  | set _ _ text => text ≠ "" ∧ Trimmed text.toList
  | technical text => Trimmed text.toList
  | command opcode params =>
    isReplyCode opcode.toList = false ∧ opcode ∉ keywords ∧ Trimmed params.toList
  | _ => True

theorem trimmed_remainder (rest : List Char) :
    Trimmed (String.ofList (Token.remainder rest)).toList := by
  rw [String.toList_ofList]
  exact trimmed_trim rest

theorem isTidy_of_parseBody {word rest : List Char} {r : Record}
    (h : parseBody word rest = .ok r) : r.IsTidy := by
  unfold parseBody at h
  split at h
  · obtain ⟨code, -, h⟩ := exists_of_bind h
    obtain ⟨reason, -, h⟩ := exists_of_bind h
    cases h
    trivial
  · next hcode =>
    split at h
    · obtain ⟨⟨name, behind⟩, -, h⟩ := exists_of_bind h
      cases h
      exact trimmed_remainder behind
    · obtain ⟨⟨name, afterName⟩, -, h⟩ := exists_of_bind h
      obtain ⟨⟨op, afterOp⟩, -, h⟩ := exists_of_bind h
      dsimp only at h
      split at h
      · cases h
      · next hsome =>
        cases h
        exact ⟨by simpa using hsome, trimmed_remainder afterOp⟩
    · obtain ⟨a, -, h⟩ := exists_of_bind h
      obtain ⟨b, -, h⟩ := exists_of_bind h
      obtain ⟨c, -, h⟩ := exists_of_bind h
      obtain ⟨d, -, h⟩ := exists_of_bind h
      cases h
      trivial
    · obtain ⟨a, -, h⟩ := exists_of_bind h
      obtain ⟨b, -, h⟩ := exists_of_bind h
      obtain ⟨c, -, h⟩ := exists_of_bind h
      cases h
      trivial
    · obtain ⟨a, -, h⟩ := exists_of_bind h
      obtain ⟨b, -, h⟩ := exists_of_bind h
      cases h
      trivial
    · obtain ⟨a, -, h⟩ := exists_of_bind h
      obtain ⟨b, -, h⟩ := exists_of_bind h
      cases h
      trivial
    · obtain ⟨m, -, h⟩ := exists_of_bind h
      cases h
      trivial
    · cases h
      exact trimmed_remainder rest
    · next hV hX hM hY hS hB hG hT =>
      cases h
      refine ⟨by simpa using hcode, ?_, trimmed_remainder rest⟩
      simp only [keywords, List.mem_cons, List.not_mem_nil, or_false, not_or]
      exact ⟨hV, hX, hM, hY, hS, hB, hG, hT⟩

/-- The opcode, if the record has one, can stand without quotes: it is not empty, starts with no
quote and holds no blank. -/
def IsShown : Record → Prop
  | command opcode _ => Bare opcode.toList
  | _ => True

theorem IsTidy.isLegible {r : Record} (h : r.IsTidy) (hshown : r.IsShown) : r.IsLegible := by
  cases r with
  | command opcode params => exact ⟨⟨hshown, h.1⟩, h.2⟩
  | _ => exact h

/-- A command that its own line is read as needs no quotes: they would not fit in. -/
theorem isShown_of_parse_toLine {r : Record} (h : parse r.toLine = .ok r) : r.IsShown := by
  cases r with
  | command opcode params =>
    obtain ⟨word, rest, hnext, hbody⟩ := exists_next_of_parse h
    obtain ⟨hcode, hword, -⟩ := isTidy_of_parseBody hbody
    have hopcode : word = opcode.toList := by
      have hfirst := word?_of_parseBody hbody
      split at hfirst
      · cases hfirst
      · rw [show opcode = String.ofList word from Option.some.inj hfirst, String.toList_ofList]
    subst hopcode
    rw [parseBody_opcode hcode hword] at hbody
    have hparams : Token.remainder rest = params.toList := by
      rw [← (Record.command.inj (Except.ok.inj hbody)).2, String.toList_ofList]
    rcases Token.bare_or_long hnext with hbare | hlong
    · exact hbare
    · -- the line has no more than one character beside the opcode and the parameters
      exfalso
      have hrest : params.toList.length ≤ rest.length := by
        rw [← hparams]
        exact Text.length_trim_le rest
      have hline : (command opcode params).toLine.toList.length ≤
          opcode.toList.length + params.toList.length + 1 := by
        rw [toLine, String.toList_ofList, encode_command]
        split
        · omega
        · rw [List.length_append, List.length_cons]
          omega
      omega
  | _ => trivial

/-- **A record that was read** is printed as a line that is read as the same record, exactly when
its opcode, if it is a command, can stand without quotes. -/
theorem parse_toLine_iff {line : String} {r : Record} (h : parse line = .ok r) :
    parse r.toLine = .ok r ↔ r.IsShown := by
  obtain ⟨word, rest, -, hbody⟩ := exists_next_of_parse h
  exact ⟨isShown_of_parse_toLine, fun hshown =>
    parse_toLine ((isTidy_of_parseBody hbody).isLegible hshown)⟩

/-- Quotes that an opcode can do without, and blanks too many. -/
theorem parse_toLine_of_spelling :
    parse "  \"move\"10  20 " = .ok (command "move" "10  20") ∧
      parse (command "move" "10  20").toLine = .ok (command "move" "10  20") := by
  have h : parse "  \"move\"10  20 " = .ok (command "move" "10  20") := rfl
  have hshown : (command "move" "10  20").IsShown :=
    show Bare "move".toList by decide
  exact ⟨h, (parse_toLine_iff h).2 hshown⟩

/-- An opcode that holds a blank is printed without the quotes it was read with, and what is
printed of the command is another kind of record. -/
theorem parse_toLine_of_quoted_opcode :
    parse "\"V FOCUS\" 5" = .ok (command "V FOCUS" "5") ∧
      parse (command "V FOCUS" "5").toLine = .ok (value "FOCUS" "5") := ⟨rfl, rfl⟩

end Record

end Observatory
