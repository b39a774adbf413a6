import Observatory.Proofs.Connection.Written
/-!
# Answers to requests

A peer has one request outstanding at a time and waits for the answer to it. An answer is a line of
a signed code and a quoted reason, and it ends what is written on account of the request.

* `Record.isOk_parse_iff` — which requests are read as a record.
* `Replies` — what is written on account of a request: plain records, and then one reply.
* `answered_iff` — a request is answered, by one line and by that line last, unless it asks for a
  change and does not say which.
-/

namespace Observatory

open Framing (stream)
open Text (OneLine)

/-! ## Requests -/

namespace Record

/-- The first token of a request: it asks for a change, or names neither a reply nor another kind
of record. -/
def IsRequestWord (word : List Char) : Prop :=
  String.ofList word = "X" ∨ isReplyCode word = false ∧ String.ofList word ∉ keywords

instance (word : List Char) : Decidable (IsRequestWord word) := inferInstanceAs (Decidable (_ ∨ _))

/-- Says what is to be changed and how: a name, an operator and something to change by. -/
def IsAssignment (rest : List Char) : Prop :=
  ∃ name afterName op afterOp, Token.nextString rest = .ok (name, afterName) ∧
    Token.nextAs Operator.parse afterName = .ok (op, afterOp) ∧ Token.remainder afterOp ≠ []

/-- A line is read token by token, from the first one on. -/
theorem parse_of_next {line : String} {word rest : List Char}
    (h : Token.next line.toList = .ok (word, rest)) : parse line = parseBody word rest := by
  have hend : Token.atEnd line.toList = false := by
    cases hblank : Token.atEnd line.toList with
    | false => rfl
    | true =>
      have hskip : Text.skipBlank line.toList = [] :=
        (Text.skipBlank_eq_nil_iff _).2 (List.all_eq_true.1 hblank)
      rw [Token.next, hskip] at h
      cases h
  rw [parse, parseChars, hend, if_neg Bool.false_ne_true, h]
  rfl

theorem parseBody_set {word : List Char} (hword : String.ofList word = "X") (rest : List Char) :
    parseBody word rest = (do
      let (name, rest) ← Token.nextString rest
      let (op, rest) ← Token.nextAs Operator.parse rest
      let text := Token.remainder rest
      if text.isEmpty then throw .missingParameter
      return .set name op (String.ofList text)) := by
  have hlist : word = ['X'] := by
    rw [← String.toList_ofList (l := word), hword]
    rfl
  subst hlist
  rfl

/-- A request to change a value is read exactly when it says what is to be changed and how. -/
theorem isOk_parseBody_set_iff {word : List Char} (hword : String.ofList word = "X")
    (rest : List Char) : (∃ r, parseBody word rest = .ok r) ↔ IsAssignment rest := by
  rw [parseBody_set hword]
  constructor
  · rintro ⟨r, h⟩
    obtain ⟨⟨name, afterName⟩, hname, h⟩ := exists_of_bind h
    obtain ⟨⟨op, afterOp⟩, hop, h⟩ := exists_of_bind h
    refine ⟨name, afterName, op, afterOp, hname, hop, fun hnone => ?_⟩
    simp only [hnone, List.isEmpty_nil, if_true] at h
    cases h
  · rintro ⟨name, afterName, op, afterOp, hname, hop, htext⟩
    refine ⟨.set name op (String.ofList (Token.remainder afterOp)), ?_⟩
    have hsome : (Token.remainder afterOp).isEmpty = false := by simpa using htext
    rw [hname]
    show (Token.nextAs Operator.parse afterName >>= _) = _
    rw [hop]
    show (if (Token.remainder afterOp).isEmpty then _ else _) = _
    rw [hsome, if_neg Bool.false_ne_true]
    rfl

/-- What a request is read as asks for an answer. -/
theorem isRequest_of_parse {line : String} {word rest : List Char}
    (h : Token.next line.toList = .ok (word, rest)) (hword : IsRequestWord word) {r : Record}
    (hr : parse line = .ok r) : r.isReply = false ∧ r.isRequest = true := by
  rw [parse_of_next h] at hr
  have hcode : isReplyCode word = false := by
    rcases hword with hset | hother
    · rw [← String.toList_ofList (l := word), hset]
      rfl
    · exact hother.1
  have hfirst : r.word? = some (String.ofList word) := by
    rw [word?_of_parseBody hr, hcode, if_neg Bool.false_ne_true]
  have hreply : r.isReply = false := by rw [isReply_eq, hfirst]; rfl
  refine ⟨hreply, ?_⟩
  -- a record of another kind starts with a keyword that is not the one of a request
  have hkey : String.ofList word = "X" ∨ String.ofList word ∉ keywords := hword.imp_right And.right
  generalize String.ofList word = first at hfirst hkey
  cases r with
  | set name op text => rfl
  | command opcode params => rfl
  | reply code reason => cases hfirst
  | _ =>
    obtain rfl := Option.some.inj hfirst
    rcases hkey with hkey | hkey
    · exact absurd hkey (by decide)
    · exact absurd (by decide) hkey

/-- **Requests that are read.** Every command is, and a request to change a value if it says what is
to be changed and how. -/
theorem isOk_parse_iff {line : String} {word rest : List Char}
    (h : Token.next line.toList = .ok (word, rest)) (hword : IsRequestWord word) :
    (∃ r, parse line = .ok r) ↔ (String.ofList word = "X" → IsAssignment rest) := by
  rw [parse_of_next h]
  by_cases hset : String.ofList word = "X"
  · rw [isOk_parseBody_set_iff hset]
    exact ⟨fun hassign _ => hassign, fun hassign => hassign hset⟩
  · have hother := hword.resolve_left hset
    have hcode : isReplyCode (String.ofList word).toList = false := by
      rw [String.toList_ofList]
      exact hother.1
    have hread := parseBody_opcode hcode hother.2 rest
    rw [String.toList_ofList] at hread
    exact ⟨fun _ hx => absurd hx hset, fun _ => ⟨_, hread⟩⟩

end Record

/-! ## Answers -/

/-- The line of an answer: a sign, at least three digits, and a quoted reason. -/
def IsAnswer (text : List Char) : Prop :=
  ∃ sign digits reason, (sign = '+' ∨ sign = '-') ∧ 3 ≤ digits.length ∧
    digits.all Char.isDigit = true ∧ text = sign :: (digits ++ ' ' :: Text.Quoted.encode reason)

theorem isAnswer_reply (code : Int32) (reason : String) :
    IsAnswer (Record.reply code reason).encode := by
  let digits := Number.padZeros 3 (Number.natText code.toInt.natAbs)
  have hdigits : digits.all Char.isDigit = true := Token.all_isDigit_padZeros 3 code.toInt.natAbs
  have hlength : 3 ≤ digits.length := by
    show 3 ≤ (List.replicate (3 - (Number.natText _).length) '0' ++ Number.natText _).length
    rw [List.length_append, List.length_replicate]
    omega
  refine ⟨if code.toInt < 0 then '-' else '+', digits, reason.toList, ?_, hlength, hdigits, rfl⟩
  split
  · exact .inr rfl
  · exact .inl rfl

/-- A complaint has a negative code. -/
theorem head?_reply {code : Int32} (hcode : code < 0) (reason : String) :
    (Record.reply code reason).encode.head? = some '-' := by
  have hneg : code.toInt < 0 := Int32.lt_iff_toInt_lt.1 hcode
  rw [Record.encode_reply, Number.signedCode, if_pos hneg]
  rfl

/-- An answer is read as a reply, if it is read at all. -/
theorem isReply_of_isAnswer {text : List Char} (h : IsAnswer text) {r : Record}
    (hr : Record.parseChars text = .ok r) : r.isReply = true := by
  obtain ⟨sign, digits, reason, hsign, hlength, hdigits, rfl⟩ := h
  have hne : digits.isEmpty = false := by
    cases digits with
    | nil => simp at hlength
    | cons d ds => rfl
  have hnumeral : Text.Numeral (sign :: digits) := by
    refine Text.numeral_cons.2 ⟨?_, fun c hc => ?_⟩
    · rcases hsign with rfl | rfl <;> decide
    · simp [Text.isNumeralChar, List.all_eq_true.1 hdigits c hc]
  have hcode : Record.isReplyCode (sign :: digits) = true := by
    rcases hsign with rfl | rfl <;> simp [Record.isReplyCode, hne, hdigits]
  have hbare : Token.Bare (sign :: digits) := Token.Numeral.bare (List.cons_ne_nil _ _) hnumeral
  rw [← List.cons_append, Record.parseChars_bare hbare (Token.endsToken_space _)] at hr
  rw [Record.isReply_of_parseBody hr, hcode]

theorem Record.IsPlain.not_isAnswer {r : Record} (h : r.IsPlain) (hreply : r.isReply = false) :
    ¬ IsAnswer r.encode := by
  intro hanswer
  obtain ⟨s, hs, hsame, -, -⟩ := h.read
  have hs' := isReply_of_isAnswer hanswer hs
  rw [hsame, hreply] at hs'
  cases hs'

namespace Connection

variable {τ σ : Type}

/-- Lines were written of which the last one and no other is an answer. A request that counts as a
malformed record is answered by a complaint. -/
def IsAnswered (c d : Connection τ) : Prop :=
  ∃ texts answer, d.output = c.output ++ stream ((texts ++ [answer]).map lineBytes) ∧
    (∀ text ∈ texts, OneLine text ∧ ¬ IsAnswer text) ∧ OneLine answer ∧ IsAnswer answer ∧
      (d.parseErrors ≠ 0 → answer.head? = some '-')

theorem IsAnswered.output_ne {c d : Connection τ} (h : IsAnswered c d) : d.output ≠ c.output := by
  obtain ⟨texts, answer, hout, -⟩ := h
  rw [hout]
  intro hsame
  have hnone : stream ((texts ++ [answer]).map lineBytes) = [] := List.append_right_eq_self.1 hsame
  have hlast : lineFeed ∈ stream ((texts ++ [answer]).map lineBytes) := by simp [stream]
  rw [hnone] at hlast
  cases hlast

/-! ## What is written on account of a request -/

/-- Plain records were written and then one reply, of a negative code if there was something to
complain about. -/
def Replies (complaint : Option ParseError) (c d : Connection τ) : Prop :=
  ∃ e code reason, Serves 0 c e ∧ d.output = (e.sendReply code reason).output ∧
    (complaint ≠ none → code < 0)

theorem replies_sendReply (complaint : Option ParseError) {code : Int32}
    (hcode : complaint ≠ none → code < 0) (reason : String) (c : Connection τ) :
    Replies complaint c (c.sendReply code reason) :=
  ⟨c, code, reason, .refl c, rfl, hcode⟩

theorem replies_ok (code : Int32) (reason : String) (c : Connection τ) :
    Replies none c (c.sendReply code reason) :=
  replies_sendReply none (fun h => absurd rfl h) reason c

/-- A request to change a value has its reply, whatever becomes of it. -/
theorem replies_receiveSet (dev : Device σ) (name : String) (op : Operator) (text : String)
    (t : Turn τ σ) : Replies (receiveSet dev name op text t).2 t.conn
      (receiveSet dev name op text t).1.conn := by
  unfold receiveSet
  dsimp only
  split
  · exact replies_ok _ _ _
  · split
    · exact replies_ok _ _ _
    · split
      · exact replies_sendReply _ (fun _ => by decide) _ _
      · exact replies_ok _ _ _
      · split
        · exact replies_ok _ _ _
        · exact replies_ok _ _ _

theorem replies_receiveInfo (dev : Device σ) (t : Turn τ σ) :
    Replies none t.conn (receiveInfo dev t).conn := by
  unfold receiveInfo
  dsimp only
  split
  · exact replies_ok _ _ _
  · exact ⟨_, _, _, serves_sendValues _ _, rfl, fun h => absurd rfl h⟩

/-- A command has its reply, whatever the back end makes of it. -/
theorem replies_receiveCommand (dev : Device σ) (opcode params : String) (t : Turn τ σ) :
    Replies (receiveCommand dev opcode params t).2 t.conn
      (receiveCommand dev opcode params t).1.conn := by
  unfold receiveCommand
  split
  · exact replies_receiveInfo dev t
  · split
    · exact replies_receiveSet dev _ _ _ t
    · dsimp only
      split <;> exact replies_ok _ _ _

theorem replies_dispatch (dev : Device σ) {r : Record} (hr : r.isRequest = true) (t : Turn τ σ) :
    Replies (dispatch dev r t).2 t.conn (dispatch dev r t).1.conn := by
  cases r with
  | set name op text => exact replies_receiveSet dev name op text t
  | command opcode params => exact replies_receiveCommand dev opcode params t
  | _ => simp [Record.isRequest] at hr

/-- The lines that were written are those of the plain records and that of the reply. -/
theorem Replies.isAnswered {complaint : Option ParseError} {c d e : Connection τ}
    (h : Replies complaint c d) (hout : e.output = d.output)
    (herrors : e.parseErrors ≠ 0 → complaint ≠ none) : IsAnswered c e := by
  obtain ⟨f, code, reason, hserves, hreply, hcode⟩ := h
  obtain ⟨records, hwritten, hplain, hcount⟩ := hserves.writes
  refine ⟨records.map Record.encode, (Record.reply code reason).encode, ?_, ?_,
    Record.oneLine_reply code reason, isAnswer_reply code reason, fun hne => ?_⟩
  · rw [hout, hreply, sendReply, send_eq, hwritten, List.append_assoc, ← recordBytes_append]
    simp only [recordBytes, List.map_append, List.map_map, List.map_cons, List.map_nil]
    rfl
  · intro text htext
    obtain ⟨r, hr, rfl⟩ := List.mem_map.1 htext
    have hno : r.isReply = false := by
      rw [← Bool.not_eq_true]
      exact List.countP_eq_zero.1 hcount r hr
    exact ⟨(hplain r hr).oneLine, (hplain r hr).not_isAnswer hno⟩
  · exact head?_reply (hcode (herrors hne)) reason

/-! ## Lines -/

theorem output_countParseError (c : Connection τ) : c.countParseError.output = c.output := by
  rcases countParseError_cases c with h | h
  · rw [h]
  · rw [h]
    rfl

/-- What cannot be read is dropped. -/
theorem output_processLine_error (dev : Device σ) (t : Turn τ σ) {line : String} {e : ParseError}
    (hparse : Record.parse line = .error e) :
    (processLine dev line t).conn.output = t.conn.output := by
  rcases processLine_error dev t hparse with h | h
  · rw [h]
  · rw [h]
    exact output_countParseError t.conn

/-- What is read as a request is answered. -/
theorem isAnswered_processLine (dev : Device σ) (t : Turn τ σ) {line : String} {r : Record}
    (hparse : Record.parse line = .ok r) (hr : r.isRequest = true) :
    IsAnswered t.conn (processLine dev line t).conn := by
  have hreplies := replies_dispatch dev hr t
  rw [processLine_ok dev t hparse]
  generalize dispatch dev r t = p at hreplies ⊢
  obtain ⟨t', complaint⟩ := p
  cases complaint with
  | none => exact hreplies.isAnswered rfl fun hne => absurd rfl hne
  | some e => exact hreplies.isAnswered (output_countParseError t'.conn) fun _ => by simp

/-- **Every request is answered** by exactly one line, and by that line last, whatever the values
are, whatever the back end does and whatever state the connection is in: except that a request to
change a value that lacks its name, its operator or its operand is dropped like any other record
that cannot be read, and nothing is written at all. -/
theorem answered_iff (dev : Device σ) {t : Turn τ σ} (hopen : t.conn.isClosed = false)
    {line : String} {word rest : List Char} (hfirst : Token.next line.toList = .ok (word, rest))
    (hword : Record.IsRequestWord word) :
    (IsAnswered t.conn (processFrame dev t (.ok line)).conn ↔
      (String.ofList word = "X" → Record.IsAssignment rest)) ∧
    (¬ (String.ofList word = "X" → Record.IsAssignment rest) →
      (processFrame dev t (.ok line)).conn.output = t.conn.output) := by
  rw [← Record.isOk_parse_iff hfirst hword, processFrame_ok dev hopen]
  cases hparse : Record.parse line with
  | ok r =>
    have hr := (Record.isRequest_of_parse hfirst hword hparse).2
    have hanswered := isAnswered_processLine dev t hparse hr
    exact ⟨⟨fun _ => ⟨r, rfl⟩, fun _ => hanswered⟩, fun hno => absurd ⟨r, rfl⟩ hno⟩
  | error e =>
    have hsame := output_processLine_error dev t hparse
    refine ⟨⟨fun h => absurd hsame h.output_ne, ?_⟩, fun _ => hsame⟩
    rintro ⟨r, hr⟩
    cases hr

/-- A text that is no number is turned down, by an answer. -/
theorem answered_of_assignment :
    let level : Value := { name := "level", description := "level of the tank",
                           flags := { writable := true }, contents := .scalar (.integer 1) }
    let t : Turn Unit Unit := ⟨.inMemory 1 .client "ui" 0, ⟨⟨[level]⟩, ()⟩⟩
    IsAnswered t.conn (processFrame Device.passive t (.ok "X level = high")).conn := by
  intro level t
  have hfirst : Token.next "X level = high".toList = .ok (['X'], " level = high".toList) := rfl
  have hassign : Record.IsAssignment " level = high".toList :=
    ⟨"level", " = high".toList, .assign, " high".toList, rfl, rfl, by decide +kernel⟩
  exact (answered_iff Device.passive rfl hfirst (by decide)).1.2 fun _ => hassign

/-- A change by nothing is not answered: nothing is written, and the peer waits. -/
theorem unanswered_of_missing_operand :
    let level : Value := { name := "level", description := "level of the tank",
                           flags := { writable := true }, contents := .scalar (.integer 1) }
    let t : Turn Unit Unit := ⟨.inMemory 1 .client "ui" 0, ⟨⟨[level]⟩, ()⟩⟩
    t.conn.isClosed = false ∧
      Token.next "X level =".toList = .ok (['X'], " level =".toList) ∧
      Record.IsRequestWord ['X'] ∧
      (processFrame Device.passive t (.ok "X level =")).conn.output = [] ∧
      ¬ IsAnswered t.conn (processFrame Device.passive t (.ok "X level =")).conn := by
  intro level t
  have hparse : Record.parse "X level =" = .error .missingParameter := rfl
  have hsame : (processFrame Device.passive t (.ok "X level =")).conn.output = [] := by
    rw [processFrame_ok Device.passive rfl]
    exact output_processLine_error Device.passive t hparse
  exact ⟨rfl, rfl, by decide, hsame, fun h => h.output_ne hsame⟩

end Connection

end Observatory
