import Observatory.Proofs.Record.Printed
import Observatory.Proofs.Value.RoundTrip
import Observatory.Token.Cursor
/-!
# The parameters of a command

A command is sent as its opcode and its parameters, each behind one space and between quotes where
it would be torn or lost without them. A receiver that takes one string after another off the line
until nothing is left gets the opcode and the parameters back, whatever the parameters are.

* `Cursor.strings` — reads string by string until nothing but blanks is left.
* `Cursor.strings_arguments`, `Text.Solid.arguments` — what is read of written parameters.
* `Command.read_as_sent` — the line of a command, and the text of the record that it is read as.
-/

namespace Observatory

open Text (isBlank Solid Trimmed)
open Text.Quoted (encodeArgument)
open Token (Bare)

/-! ## Reading to the end -/

namespace Token

/-- There is no token where nothing but blanks is left. -/
theorem atEnd_of_next {cs token rest : List Char} (h : next cs = .ok (token, rest)) :
    atEnd cs = false := by
  cases hend : atEnd cs with
  | false => rfl
  | true =>
    have hblank : Text.skipBlank cs = [] :=
      (Text.skipBlank_eq_nil_iff cs).2 (by simpa [atEnd, Text.isBlankLine] using hend)
    unfold next at h
    rw [hblank] at h
    cases h

/-- A token is taken off the text. -/
theorem length_of_next {cs token rest : List Char} (h : next cs = .ok (token, rest)) :
    rest.length < cs.length := by
  have hskip : (Text.skipBlank cs).length ≤ cs.length := (List.dropWhile_sublist _).length_le
  unfold next at h
  split at h
  · cases h
  · next body hbody =>
    rw [hbody, List.length_cons] at hskip
    split at h
    · next read hread =>
      cases h
      have hlength := Text.Quoted.length_of_readFrom hread
      rw [List.length_nil] at hlength
      omega
    · cases h
  · next c behind _ hink =>
    cases h
    have hc : Text.isInk c = true := by
      have hhead : c ∈ (Text.skipBlank cs).head? := by rw [hink]; rfl
      simp [Text.isInk, Text.isBlank_of_head?_skipBlank cs hhead]
    have hdrop : (behind.dropWhile Text.isInk).length ≤ behind.length :=
      (List.dropWhile_sublist _).length_le
    rw [List.dropWhile_cons_of_pos hc]
    rw [hink, List.length_cons] at hskip
    omega

end Token

namespace Cursor

/-- A cursor passes the token that it reads, and stays where there is none. -/
theorem string_eq (cs : List Char) : (Cursor.mk cs).string =
    match Token.next cs with
    | .ok (token, rest) => (.ok (String.ofList token), ⟨rest⟩)
    | .error e => (.error e, ⟨cs⟩) := by
  show ((Token.nextString cs).map Prod.fst, Cursor.mk (Token.skip cs)) = _
  unfold Token.nextString Token.nextAs Token.skip
  cases Token.next cs <;> rfl

/-- A string that was read is taken off the text. -/
theorem length_of_string {c left : Cursor} {s : String} (h : c.string = (.ok s, left)) :
    left.rest.length < c.rest.length := by
  rw [string_eq c.rest] at h
  split at h
  · next token rest hnext =>
    cases h
    exact Token.length_of_next hnext
  · cases h

/-- Reads string by string until nothing but blanks is left. -/
def strings (c : Cursor) : Except ParseError (List String) :=
  if c.atEnd then .ok []
  else
    match h : c.string with
    | (.ok s, left) =>
      have : left.rest.length < c.rest.length := length_of_string h
      (s :: ·) <$> left.strings
    | (.error e, _) => .error e
termination_by c.rest.length

theorem strings_of_atEnd {c : Cursor} (h : c.atEnd = true) : c.strings = .ok [] := by
  rw [strings, if_pos h]

theorem strings_of_next {cs token rest : List Char} (h : Token.next cs = .ok (token, rest)) :
    (Cursor.mk cs).strings = (String.ofList token :: ·) <$> (Cursor.mk rest).strings := by
  have hend : (Cursor.mk cs).atEnd = false := Token.atEnd_of_next h
  have hstring : (Cursor.mk cs).string = (.ok (String.ofList token), ⟨rest⟩) := by
    rw [string_eq, h]
  rw [strings, hend, if_neg Bool.false_ne_true]
  split
  · next s left hread =>
    cases hstring.symm.trans hread
    rfl
  · next e left hread => cases hstring.symm.trans hread

/-- Written parameters are read back. -/
theorem strings_arguments (params : List String) :
    (Cursor.mk (params.flatMap fun p => ' ' :: encodeArgument p.toList)).strings = .ok params := by
  induction params with
  | nil => exact strings_of_atEnd rfl
  | cons p params ih =>
    have hnext := Token.next_encodeArgument p.toList (Record.endsToken_params params)
    rw [← Token.next_space] at hnext
    rw [List.flatMap_cons, List.cons_append, strings_of_next hnext, ih, String.ofList_toList]
    rfl

end Cursor

/-! ## The text of the parameters -/

namespace Text.Solid

theorem encodeArgument (s : List Char) : Solid (Quoted.encodeArgument s) := by
  unfold Quoted.encodeArgument
  split
  · exact encode s
  · next h =>
    simp only [Bool.or_eq_true, List.isEmpty_iff, List.any_eq_true, not_or, not_exists,
      not_and] at h
    have hink (d : Char) (hd : d ∈ s) : isBlank d = false := by simpa using (h.2 d hd).1.1
    exact ⟨h.1, fun d hd => hink d (List.mem_of_mem_head? hd),
      fun d hd => hink d (List.mem_of_mem_getLast? hd)⟩

/-- Parameters have something to see at both ends. -/
theorem arguments (p : String) (params : List String) :
    Solid (Quoted.encodeArgument p.toList ++
      params.flatMap fun q => ' ' :: Quoted.encodeArgument q.toList) := by
  induction params generalizing p with
  | nil =>
    rw [List.flatMap_nil, List.append_nil]
    exact encodeArgument p.toList
  | cons q params ih =>
    rw [List.flatMap_cons]
    exact (encodeArgument p.toList).append (ih q) [' ']

end Text.Solid

namespace Command

/-- What a receiver takes for the text of the parameters is read back as the parameters. -/
theorem strings_remainder (params : List String) :
    (Cursor.mk (Token.remainder
      (params.flatMap fun p => ' ' :: encodeArgument p.toList))).strings = .ok params := by
  cases params with
  | nil => exact Cursor.strings_of_atEnd rfl
  | cons p params =>
    have hread := Cursor.strings_arguments (p :: params)
    rw [List.flatMap_cons, List.cons_append] at hread ⊢
    have hfirst := Token.next_encodeArgument p.toList (Record.endsToken_params params)
    rw [Cursor.strings_of_next ((Token.next_space _).trans hfirst)] at hread
    rw [Token.remainder_space, (Solid.arguments p params).trimmed, Cursor.strings_of_next hfirst]
    exact hread

/-- **A receiver reads what was sent**: the opcode and then the parameters, as they are; and where
the opcode is no code of a reply and names no other kind of record, the line is a command with that
opcode and a text that holds the parameters. -/
theorem read_as_sent {c : Command} (h : Bare c.opcode.toList) :
    (Cursor.ofString c.line).strings = .ok (c.opcode :: c.params) ∧
      (Record.isReplyCode c.opcode.toList = false → c.opcode ∉ Record.keywords →
        ∃ text, Record.parse c.line = .ok (.command c.opcode text) ∧
          (Cursor.ofString text).strings = .ok c.params) := by
  have hline : c.line.toList = c.encode := String.toList_ofList
  constructor
  · have hnext : Token.next c.encode = .ok (c.opcode.toList, _) :=
      Token.next_bare h (Record.endsToken_params c.params)
    rw [Cursor.ofString, hline, Cursor.strings_of_next hnext, Cursor.strings_arguments,
      String.ofList_toList]
    rfl
  · intro hcode hword
    have hparse : Record.parse c.line = .ok (.command c.opcode (String.ofList (Token.remainder
        (c.params.flatMap fun p => ' ' :: encodeArgument p.toList)))) := by
      rw [Record.parse, hline, Record.parseChars_commandEncode ⟨h, hcode⟩,
        Record.parseBody_opcode hcode hword]
    refine ⟨_, hparse, ?_⟩
    rw [Cursor.ofString, String.toList_ofList, strings_remainder]

/-- Parameters with spaces, a sign in front, nothing in them, a quote, a backslash and a line break,
and one that is a control character. -/
theorem read_as_sent_of_script :
    Bare "script".toList ∧ Record.isReplyCode "script".toList = false ∧
      "script" ∉ Record.keywords ∧
      (Cursor.ofString
        (line ⟨"script", ["exposure 10", "-5", "", "\"\\\n", "\x01"], none, false⟩)).strings =
        .ok ["script", "exposure 10", "-5", "", "\"\\\n", "\x01"] ∧
      ∃ text, Record.parse
          (line ⟨"script", ["exposure 10", "-5", "", "\"\\\n", "\x01"], none, false⟩) =
          .ok (.command "script" text) ∧
        (Cursor.ofString text).strings = .ok ["exposure 10", "-5", "", "\"\\\n", "\x01"] := by
  have hbare : Bare "script".toList := by decide
  have hcode : Record.isReplyCode "script".toList = false := by decide
  have hword : "script" ∉ Record.keywords := by decide
  obtain ⟨hall, hrecord⟩ := @read_as_sent
    ⟨"script", ["exposure 10", "-5", "", "\"\\\n", "\x01"], none, false⟩ hbare
  exact ⟨hbare, hcode, hword, hall, hrecord hcode hword⟩

end Command

end Observatory
