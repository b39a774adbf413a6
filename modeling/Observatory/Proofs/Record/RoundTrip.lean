import Observatory.Command.Basic
import Observatory.Proofs.Record.Tokens
import Observatory.Record.Basic
/-!
# Records are read back

Every record that a connection writes is one line, and reading the line gives the record back.
A command whose opcode could not be taken for the code of a reply is never read as a reply.

* `oneLine_value`, `oneLine_reply`, … — one line each.
* `parseChars_value`, `parseChars_reply`, … — reading undoes writing.
* `isReply_of_parseChars_commandEncode` — a command is not taken for a reply.
* `parse_toLine` — reading undoes writing, for every kind of record.
-/

namespace Observatory.Record

open Text (OneLine Trimmed trim oneLine_append oneLine_append_space oneLine_encode
  oneLine_encodeIfNeeded oneLine_encodeArgument oneLine_escaped numeral_natText numeral_intText
  numeral_signedCode)
open Text.Quoted (encodeIfNeeded)
open Token (Bare EndsToken)

/-! ## Lines as a word and its parameters -/

theorem encode_value (name text : String) : (value name text).encode =
    ['V'] ++ ' ' :: (encodeIfNeeded name.toList ++ ' ' :: text.toList) := rfl

theorem encode_set (name : String) (op : Operator) (text : String) : (set name op text).encode =
    ['X'] ++ ' ' :: (encodeIfNeeded name.toList ++ ' ' :: ([op.symbol] ++ ' ' :: text.toList)) := rfl

theorem encode_metaInfo (code : UInt32) (name description : String) :
    (metaInfo code name description).encode = "METAINFO".toList ++
      ' ' :: (Number.natText code.toNat ++ ' ' :: (Text.Quoted.encode name.toList ++
        ' ' :: Text.Quoted.encode description.toList)) := rfl

theorem encode_symbolInfo (name symbol : String) : (symbolInfo name symbol).encode =
    "SELMETAINFO".toList ++
      ' ' :: (Text.Quoted.encode name.toList ++ ' ' :: Text.Quoted.encode symbol.toList) := rfl

theorem encode_status (bits : UInt32) :
    (status bits).encode = ['S'] ++ ' ' :: Number.natText bits.toNat := rfl

theorem encode_blocking (bits : UInt32) :
    (blocking bits).encode = ['B'] ++ ' ' :: Number.natText bits.toNat := rfl

theorem encode_message (m : Message) :
    (message m).encode = "MESSAGE".toList ++ ' ' :: m.encode := rfl

theorem encode_technical (text : String) :
    (technical text).encode = ['T'] ++ ' ' :: text.toList := rfl

theorem encode_reply (code : Int32) (reason : String) : (reply code reason).encode =
    Number.signedCode code.toInt ++ ' ' :: Text.Quoted.encode reason.toList := rfl

theorem encode_command (opcode params : String) : (command opcode params).encode =
    if params.isEmpty then opcode.toList else opcode.toList ++ ' ' :: params.toList := rfl

/-! ## One line -/

theorem oneLine_value (name : String) {text : String} (h : OneLine text.toList) :
    OneLine (value name text).encode := by
  simp only [encode_value, oneLine_append_space]
  exact ⟨by decide, oneLine_encodeIfNeeded _, h⟩

theorem oneLine_metaInfo (code : UInt32) (name description : String) :
    OneLine (metaInfo code name description).encode := by
  simp only [encode_metaInfo, oneLine_append_space]
  exact ⟨by decide, (numeral_natText _).oneLine, oneLine_encode _, oneLine_encode _⟩

theorem oneLine_symbolInfo (name symbol : String) : OneLine (symbolInfo name symbol).encode := by
  simp only [encode_symbolInfo, oneLine_append_space]
  exact ⟨by decide, oneLine_encode _, oneLine_encode _⟩

theorem oneLine_status (bits : UInt32) : OneLine (status bits).encode := by
  rw [encode_status, oneLine_append_space]
  exact ⟨by decide, (numeral_natText _).oneLine⟩

theorem oneLine_blocking (bits : UInt32) : OneLine (blocking bits).encode := by
  rw [encode_blocking, oneLine_append_space]
  exact ⟨by decide, (numeral_natText _).oneLine⟩

theorem oneLine_message (m : Message) : OneLine (message m).encode := by
  simp only [encode_message, oneLine_append_space, Message.encode]
  exact ⟨by decide, (numeral_intText _).oneLine, (numeral_natText _).oneLine,
    oneLine_encodeIfNeeded _, (numeral_natText _).oneLine, oneLine_escaped _⟩

theorem oneLine_technical {text : String} (h : OneLine text.toList) :
    OneLine (technical text).encode := by
  rw [encode_technical, oneLine_append_space]
  exact ⟨by decide, h⟩

theorem oneLine_reply (code : Int32) (reason : String) :
    OneLine (reply code reason).encode := by
  rw [encode_reply, oneLine_append_space]
  exact ⟨(numeral_signedCode _).oneLine, oneLine_encode _⟩

/-! ## The first token -/

theorem parseChars_bare {w rest : List Char} (h : Bare w) (hrest : EndsToken rest) :
    parseChars (w ++ rest) = parseBody w rest := by
  have hend : Token.atEnd (w ++ rest) = false := h.not_all_blank rest
  unfold parseChars
  rw [if_neg (by simp [hend]), Token.next_bare h hrest]
  rfl

theorem isReplyCode_signedCode (i : Int) : isReplyCode (Number.signedCode i) = true := by
  have hdigits := Token.all_isDigit_padZeros 3 i.natAbs
  have hne : (Number.padZeros 3 (Number.natText i.natAbs)).isEmpty = false := by
    simp [Number.padZeros, Number.natText, Nat.toDigits_ne_nil]
  unfold Number.signedCode
  split <;> simp [isReplyCode, hdigits, hne]

/-! ## Reading undoes writing -/

/-- A pushed text is read without the blanks at its ends. -/
theorem parseChars_value_trim (name text : String) :
    parseChars (value name text).encode = .ok (value name (String.ofList (trim text.toList))) := by
  have hname := Token.nextString_encodeIfNeeded name (Token.endsToken_space text.toList)
  rw [encode_value, parseChars_bare (by decide) (by simp)]
  show (Token.nextString _ >>= fun p =>
    Except.ok (value p.1 (String.ofList (Token.remainder p.2)))) = _
  rw [Token.nextString_space, hname]
  show Except.ok _ = _
  rw [Token.remainder_space]

theorem parseChars_value (name : String) {text : String} (h : Trimmed text.toList) :
    parseChars (value name text).encode = .ok (value name text) := by
  rw [parseChars_value_trim, h, String.ofList_toList]

theorem bare_symbol (op : Operator) : Bare [op.symbol] := by
  cases op <;> decide

/-- A request to change a value needs something to change it by, which is read without the blanks
at its ends. -/
theorem parseChars_set_trim (name : String) (op : Operator) (text : String) :
    parseChars (set name op text).encode =
      if (trim text.toList).isEmpty then .error .missingParameter
      else .ok (set name op (String.ofList (trim text.toList))) := by
  have hname := Token.nextString_encodeIfNeeded name
    (Token.endsToken_space ([op.symbol] ++ ' ' :: text.toList))
  have hop : Token.nextAs Operator.parse ([op.symbol] ++ ' ' :: text.toList) =
      .ok (op, ' ' :: text.toList) :=
    Token.nextAs_bare (bare_symbol op) op.parse_symbol (Token.endsToken_space _)
  rw [encode_set, parseChars_bare (by decide) (by simp)]
  show (Token.nextString _ >>= _) = _
  rw [Token.nextString_space, hname]
  show (Token.nextAs Operator.parse _ >>= _) = _
  rw [Token.nextAs_space, hop]
  show (if (Token.remainder (' ' :: text.toList)).isEmpty then _ else _) = _
  rw [Token.remainder_space]
  rfl

theorem parseChars_set (name : String) (op : Operator) {text : String} (hne : text ≠ "")
    (h : Trimmed text.toList) : parseChars (set name op text).encode = .ok (set name op text) := by
  have htext : text.toList.isEmpty = false := by simpa using hne
  rw [parseChars_set_trim, h, htext, if_neg Bool.false_ne_true, String.ofList_toList]

theorem parseChars_metaInfo (code : UInt32) (name description : String) :
    parseChars (metaInfo code name description).encode = .ok (metaInfo code name description) := by
  rw [encode_metaInfo, parseChars_bare (by decide) (by simp)]
  show (Token.nextAs Token.toUInt32 _ >>= fun a => Token.nextString a.2 >>= fun b =>
    Token.nextString b.2 >>= fun c => Token.finish c.2 >>= fun _ =>
      Except.ok (metaInfo a.1 b.1 c.1)) = _
  rw [Token.nextAs_space, Token.nextAs_natText code (by simp)]
  show (Token.nextString _ >>= fun b => Token.nextString b.2 >>= fun c =>
    Token.finish c.2 >>= fun _ => Except.ok (metaInfo code b.1 c.1)) = _
  rw [Token.nextString_space, Token.nextString_encode]
  have h := Token.nextString_encode description []
  rw [List.append_nil] at h
  show (Token.nextString _ >>= fun c => Token.finish c.2 >>= fun _ =>
    Except.ok (metaInfo code name c.1)) = _
  rw [Token.nextString_space, h]
  rfl

theorem parseChars_symbolInfo (name symbol : String) :
    parseChars (symbolInfo name symbol).encode = .ok (symbolInfo name symbol) := by
  rw [encode_symbolInfo, parseChars_bare (by decide) (by simp)]
  show (Token.nextString _ >>= fun b => Token.nextString b.2 >>= fun c =>
    Token.finish c.2 >>= fun _ => Except.ok (symbolInfo b.1 c.1)) = _
  rw [Token.nextString_space, Token.nextString_encode]
  have h := Token.nextString_encode symbol []
  rw [List.append_nil] at h
  show (Token.nextString _ >>= fun c => Token.finish c.2 >>= fun _ =>
    Except.ok (symbolInfo name c.1)) = _
  rw [Token.nextString_space, h]
  rfl

theorem parseChars_status (bits : UInt32) :
    parseChars (status bits).encode = .ok (status bits) := by
  have h := Token.nextAs_natText bits Token.endsToken_nil
  rw [List.append_nil] at h
  rw [encode_status, parseChars_bare (by decide) (by simp)]
  show (Token.nextAs Token.toUInt32 _ >>= fun a => Token.finish a.2 >>= fun _ =>
    Except.ok (status a.1)) = _
  rw [Token.nextAs_space, h]
  rfl

theorem parseChars_blocking (bits : UInt32) :
    parseChars (blocking bits).encode = .ok (blocking bits) := by
  have h := Token.nextAs_natText bits Token.endsToken_nil
  rw [List.append_nil] at h
  rw [encode_blocking, parseChars_bare (by decide) (by simp)]
  show (Token.nextAs Token.toUInt32 _ >>= fun a => Token.finish a.2 >>= fun _ =>
    Except.ok (blocking a.1)) = _
  rw [Token.nextAs_space, h]
  rfl

theorem parse_messageEncode (m : Message) : Message.parse (' ' :: m.encode) = .ok m := by
  have hsec : Token.nextAs Token.toInt64 (' ' :: m.encode) = _ :=
    (Token.nextAs_space _).trans (Token.nextAs_bare (Token.bare_intText _)
      (Token.toInt64_intText m.sec) (by simp))
  unfold Message.parse
  rw [hsec]
  show (Token.nextAs Token.toUInt32 _ >>= _) = _
  rw [Token.nextAs_space, Token.nextAs_natText m.usec (by simp)]
  show (Token.nextString _ >>= _) = _
  rw [Token.nextString_space, Token.nextString_encodeIfNeeded m.origin (by simp)]
  show (Token.nextAs Token.toUInt32 _ >>= _) = _
  rw [Token.nextAs_space, Token.nextAs_natText m.severity.bits (by simp)]
  show Except.ok (Message.mk m.sec m.usec m.origin (Severity.ofBits m.severity.bits)
    (String.ofList (Text.Escaped.decode (Text.Escaped.encode m.text.toList)))) = _
  rw [Severity.ofBits_bits, Text.Escaped.decode_encode, String.ofList_toList]

theorem parseChars_message (m : Message) :
    parseChars (message m).encode = .ok (message m) := by
  rw [encode_message, parseChars_bare (by decide) (by simp)]
  show (Message.parse _ >>= fun m => Except.ok (message m)) = _
  rw [parse_messageEncode]
  rfl

/-- The text of a technical record is read without the blanks at its ends. -/
theorem parseChars_technical_trim (text : String) : parseChars (technical text).encode =
    .ok (technical (String.ofList (trim text.toList))) := by
  rw [encode_technical, parseChars_bare (by decide) (by simp)]
  show Except.ok _ = _
  rw [Token.remainder_space]

theorem parseChars_technical {text : String} (h : Trimmed text.toList) :
    parseChars (technical text).encode = .ok (technical text) := by
  rw [parseChars_technical_trim, h, String.ofList_toList]

theorem parseBody_replyCode {opcode : List Char} (h : isReplyCode opcode = true)
    (rest : List Char) : parseBody opcode rest = (do
      let code ← Token.toInt32 opcode
      let reason ← Token.text rest
      return reply code (String.ofList reason)) := by
  unfold parseBody
  rw [if_pos h]

theorem parseChars_reply (code : Int32) (reason : String) :
    parseChars (reply code reason).encode = .ok (reply code reason) := by
  rw [encode_reply, parseChars_bare (Token.bare_signedCode _) (by simp),
    parseBody_replyCode (isReplyCode_signedCode _), Token.toInt32_signedCode]
  show (Token.text _ >>= _) = _
  rw [Token.text_encode]
  show Except.ok _ = _
  rw [String.ofList_toList]

/-! ## Replies and commands -/

/-- Whether a record answers a request. -/
def isReply : Record → Bool
  | reply _ _ => true
  | _ => false

/-- Whether a record asks for an answer. -/
def isRequest : Record → Bool
  | set _ _ _ => true
  | command _ _ => true
  | _ => false

theorem exists_of_bind {ε α β : Type} {x : Except ε α} {f : α → Except ε β} {b : β}
    (h : (x >>= f) = .ok b) : ∃ a, x = .ok a ∧ f a = .ok b := by
  cases x with
  | error e => cases h
  | ok a => exact ⟨a, rfl, h⟩

/-- The first word of a record, unless it is the code of a reply. -/
def word? : Record → Option String
  | value _ _ => some "V"
  | set _ _ _ => some "X"
  | metaInfo _ _ _ => some "METAINFO"
  | symbolInfo _ _ => some "SELMETAINFO"
  | status _ => some "S"
  | blocking _ => some "B"
  | message _ => some "MESSAGE"
  | technical _ => some "T"
  | reply _ _ => none
  | command opcode _ => some opcode

theorem isReply_eq (r : Record) : r.isReply = r.word?.isNone := by
  cases r <;> rfl

/-- **The first token** of a line says which record it is. -/
theorem word?_of_parseBody {opcode rest : List Char} {r : Record}
    (h : parseBody opcode rest = .ok r) :
    r.word? = if isReplyCode opcode then none else some (String.ofList opcode) := by
  unfold parseBody at h
  split at h
  · next hcode =>
    obtain ⟨code, -, h⟩ := exists_of_bind h
    obtain ⟨reason, -, h⟩ := exists_of_bind h
    cases h
    rw [if_pos hcode]
    rfl
  · next hcode =>
    rw [if_neg hcode]
    split at h
    · next hword =>
      obtain ⟨a, -, h⟩ := exists_of_bind h
      cases h
      rw [hword]
      rfl
    · next hword =>
      obtain ⟨a, -, h⟩ := exists_of_bind h
      obtain ⟨b, -, h⟩ := exists_of_bind h
      dsimp only at h
      split at h
      · cases h
      · cases h
        rw [hword]
        rfl
    · next hword =>
      obtain ⟨a, -, h⟩ := exists_of_bind h
      obtain ⟨b, -, h⟩ := exists_of_bind h
      obtain ⟨c, -, h⟩ := exists_of_bind h
      obtain ⟨d, -, h⟩ := exists_of_bind h
      cases h
      rw [hword]
      rfl
    · next hword =>
      obtain ⟨a, -, h⟩ := exists_of_bind h
      obtain ⟨b, -, h⟩ := exists_of_bind h
      obtain ⟨c, -, h⟩ := exists_of_bind h
      cases h
      rw [hword]
      rfl
    · next hword =>
      obtain ⟨a, -, h⟩ := exists_of_bind h
      obtain ⟨b, -, h⟩ := exists_of_bind h
      cases h
      rw [hword]
      rfl
    · next hword =>
      obtain ⟨a, -, h⟩ := exists_of_bind h
      obtain ⟨b, -, h⟩ := exists_of_bind h
      cases h
      rw [hword]
      rfl
    · next hword =>
      obtain ⟨m, -, h⟩ := exists_of_bind h
      cases h
      rw [hword]
      rfl
    · next hword =>
      cases h
      rw [hword]
      rfl
    · cases h
      rfl

/-- A record is a reply exactly when it starts with the code of one. -/
theorem isReply_of_parseBody {opcode rest : List Char} {r : Record}
    (h : parseBody opcode rest = .ok r) : r.isReply = isReplyCode opcode := by
  rw [isReply_eq, word?_of_parseBody h]
  cases isReplyCode opcode <;> rfl

/-- The opcode of a command that no peer takes for a reply. -/
structure IsOpcode (opcode : String) : Prop where
  bare : Bare opcode.toList
  noReply : isReplyCode opcode.toList = false

instance (opcode : String) : Decidable (IsOpcode opcode) :=
  decidable_of_iff (Bare opcode.toList ∧ isReplyCode opcode.toList = false)
    ⟨fun h => ⟨h.1, h.2⟩, fun h => ⟨h.bare, h.noReply⟩⟩

/-- Whatever its parameters are, a command is one line if its opcode is without blanks. -/
theorem oneLine_commandEncode {c : Command}
    (h : ∀ ch ∈ c.opcode.toList, Text.isBlank ch = false) : OneLine c.encode := by
  refine oneLine_append.2 ⟨Text.oneLine_of_ink h, Text.oneLine_flatMap fun p _ => ?_⟩
  exact Text.oneLine_cons.2 ⟨by decide, oneLine_encodeArgument _⟩

theorem endsToken_params (params : List String) : EndsToken
    (params.flatMap fun p => ' ' :: Text.Quoted.encodeArgument p.toList) := by
  cases params with
  | nil => exact Token.endsToken_nil
  | cons p ps => exact Token.endsToken_space _

/-- A command is read as a record of its opcode. -/
theorem parseChars_commandEncode {c : Command} (h : IsOpcode c.opcode) :
    parseChars c.encode = parseBody c.opcode.toList
      (c.params.flatMap fun p => ' ' :: Text.Quoted.encodeArgument p.toList) :=
  parseChars_bare h.bare (endsToken_params _)

theorem isReply_of_parseChars_commandEncode {c : Command} (h : IsOpcode c.opcode) {r : Record}
    (hr : parseChars c.encode = .ok r) : r.isReply = false := by
  rw [parseChars_commandEncode h] at hr
  rw [isReply_of_parseBody hr, h.noReply]

/-! ## All records -/

/-- The words that name a kind of record. -/
def keywords : List String := ["V", "X", "METAINFO", "SELMETAINFO", "S", "B", "MESSAGE", "T"]

/-- Any other word is the opcode of a command. -/
theorem parseBody_opcode {opcode : String} (hcode : isReplyCode opcode.toList = false)
    (hword : opcode ∉ keywords) (rest : List Char) : parseBody opcode.toList rest =
      .ok (command opcode (String.ofList (Token.remainder rest))) := by
  unfold parseBody
  rw [if_neg (by simp [hcode]), String.ofList_toList]
  split
  all_goals first | rfl | exact absurd (by decide) hword

/-- A command is its opcode and, behind a space, its parameters, if it has any. -/
theorem exists_encode_command (opcode params : String) : ∃ rest,
    (command opcode params).encode = opcode.toList ++ rest ∧ EndsToken rest ∧
      Token.remainder rest = trim params.toList := by
  rw [encode_command]
  by_cases hnone : params.isEmpty = true
  · have hempty : params = "" := by simpa using hnone
    subst hempty
    exact ⟨[], (List.append_nil _).symm, Token.endsToken_nil, rfl⟩
  · rw [if_neg hnone]
    exact ⟨' ' :: params.toList, rfl, Token.endsToken_space _, Token.remainder_space _⟩

theorem parseChars_command {opcode params : String} (hopcode : IsOpcode opcode)
    (hword : opcode ∉ keywords) (h : Trimmed params.toList) :
    parseChars (command opcode params).encode = .ok (command opcode params) := by
  obtain ⟨rest, hencode, hends, hrest⟩ := exists_encode_command opcode params
  rw [hencode, parseChars_bare hopcode.bare hends, parseBody_opcode hopcode.noReply hword, hrest, h,
    String.ofList_toList]

/-- A record of which the line shows every part: texts that run to the end of the line have no
blanks at their ends, and a command is not called like another kind of record. -/
def IsLegible : Record → Prop
  | value _ text => Trimmed text.toList
  | set _ _ text => text ≠ "" ∧ Trimmed text.toList
  | technical text => Trimmed text.toList
  | command opcode params => IsOpcode opcode ∧ opcode ∉ keywords ∧ Trimmed params.toList
  | _ => True

/-- **Reading undoes writing**, for every kind of record. -/
theorem parse_toLine {r : Record} (h : r.IsLegible) : parse r.toLine = .ok r := by
  rw [parse, toLine, String.toList_ofList]
  cases r with
  | value name text => exact parseChars_value name h
  | set name op text => exact parseChars_set name op h.1 h.2
  | metaInfo code name description => exact parseChars_metaInfo code name description
  | symbolInfo name symbol => exact parseChars_symbolInfo name symbol
  | status bits => exact parseChars_status bits
  | blocking bits => exact parseChars_blocking bits
  | message m => exact parseChars_message m
  | technical text => exact parseChars_technical h
  | reply code reason => exact parseChars_reply code reason
  | command opcode params => exact parseChars_command h.1 h.2.1 h.2.2

/-- A name that looks like the code of a reply, and a text that starts like a quoted token. -/
theorem parse_toLine_of_set : (set "+000" .subtract "\"5\" 6").IsLegible ∧
    parse (set "+000" .subtract "\"5\" 6").toLine = .ok (set "+000" .subtract "\"5\" 6") := by
  have h : (set "+000" .subtract "\"5\" 6").IsLegible := ⟨by decide, by decide⟩
  exact ⟨h, parse_toLine h⟩

end Observatory.Record
