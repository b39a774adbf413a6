import Observatory.Proofs.Connection.Answers
/-!
# The short form of an assignment

The name of a value that peers may write, followed by a text, is short for the request to assign
the text to the value. The two lines are read by different readers: the short one as a command,
whose parameters may be missing, the full one as a request, which has to say what to assign.

* `Record.parse_short`, `Record.parse_full` — what the two lines are read as.
* `Connection.short_iff_full` — they do the same exactly when there is a text to assign.
-/

namespace Observatory

open Text (isBlankLine trim)
open Text.Quoted (encodeIfNeeded)

/-- The short form of an assignment: the name and the text. -/
def shortForm (name text : String) : String :=
  String.ofList (encodeIfNeeded name.toList ++ ' ' :: text.toList)

/-- The full form of an assignment: the word of a request, the name, the sign and the text. -/
def fullForm (name text : String) : String :=
  String.ofList ("X ".toList ++ encodeIfNeeded name.toList ++ " = ".toList ++ text.toList)

/-- A text without the blanks at its ends. -/
def trimmedText (text : String) : String := String.ofList (trim text.toList)

/-- A name that a line may start with to stand for the value: peers may write the value, and the
name is no other word that a line can start with. -/
structure IsAssignable (values : Registry) (name : String) : Prop where
  writable : ∃ v, values.get? name = some v ∧ v.flags.writable = true
  noInfo : name ≠ "info"
  noReply : Record.isReplyCode name.toList = false
  noKeyword : name ∉ Record.keywords

/-! ## What the two forms are read as -/

namespace Record

/-- The short form is a command of the name. -/
theorem parse_short {name : String} (hreply : isReplyCode name.toList = false)
    (hword : name ∉ keywords) (text : String) :
    parse (shortForm name text) = .ok (command name (trimmedText text)) := by
  have hnext : Token.next (shortForm name text).toList = .ok (name.toList, ' ' :: text.toList) := by
    rw [shortForm, String.toList_ofList]
    exact Token.next_encodeIfNeeded name.toList (Token.endsToken_space text.toList)
  rw [parse_of_next hnext, parseBody_opcode hreply hword, Token.remainder_space, trimmedText]

/-- The full form is a request to assign the text, unless there is none. -/
theorem parse_full (name text : String) : parse (fullForm name text) =
    if isBlankLine text.toList then .error .missingParameter
    else .ok (set name .assign (trimmedText text)) := by
  have hline : (fullForm name text).toList = (set name .assign text).encode := by
    rw [fullForm, String.toList_ofList, List.append_assoc]
    rfl
  have hblank : (trim text.toList).isEmpty = isBlankLine text.toList := by
    rw [Bool.eq_iff_iff, List.isEmpty_iff, Text.trim_eq_nil_iff, isBlankLine, List.all_eq_true]
  rw [parse, hline, parseChars_set_trim, hblank, trimmedText]

end Record

namespace Connection

variable {τ σ : Type}

/-! ## What the two forms do -/

/-- Two turns ended alike: with the same values, and with the same answers, events and number of
malformed records of the connection. -/
structure SameEffect (t u : Turn τ σ) : Prop where
  values : t.own.values = u.own.values
  output : t.conn.output = u.conn.output
  events : t.conn.events = u.conn.events
  parseErrors : t.conn.parseErrors = u.conn.parseErrors

/-- A command that is the name of a value is handled like the request. -/
theorem dispatch_command_eq (dev : Device σ) {name : String} {t : Turn τ σ}
    (h : IsAssignable t.own.values name) (text : String) :
    dispatch dev (.command name text) t = dispatch dev (.set name .assign text) t := by
  obtain ⟨v, hfound, hwritable⟩ := h.writable
  show receiveCommand dev name text t = receiveSet dev name .assign text t
  rw [receiveCommand, if_neg h.noInfo, hfound]
  exact if_pos hwritable

theorem processLine_short_eq_full (dev : Device σ) {name text : String} {t : Turn τ σ}
    (h : IsAssignable t.own.values name) (htext : isBlankLine text.toList = false) :
    processLine dev (shortForm name text) t = processLine dev (fullForm name text) t := by
  have hfull : Record.parse (fullForm name text) = .ok (.set name .assign (trimmedText text)) := by
    rw [Record.parse_full, htext, if_neg Bool.false_ne_true]
  have hshort := Record.parse_short h.noReply h.noKeyword text
  rw [processLine_ok dev t hfull, processLine_ok dev t hshort, dispatch_command_eq dev h]

/-- A request without a text is no blank line, and it is not read. -/
theorem processLine_full_of_blank (dev : Device σ) (name : String) {text : String} (t : Turn τ σ)
    (htext : isBlankLine text.toList = true) :
    processLine dev (fullForm name text) t = t.onConn countParseError := by
  have hparse : Record.parse (fullForm name text) = .error .missingParameter := by
    rw [Record.parse_full, htext, if_pos rfl]
  have hink : isBlankLine (fullForm name text).toList = false := by
    simp [fullForm, isBlankLine, show Text.isBlank 'X' = false by decide]
  rw [processLine, hink, if_neg Bool.false_ne_true, hparse]

/-- **The short form of an assignment** does what the full form does, exactly when there is a text
to assign or the connection, which is closed, takes nothing any more. An assignment of nothing is
carried out or turned down, by an answer, if it is spelt in the short form; spelt in full it is a
malformed record that nobody answers. -/
theorem short_iff_full (dev : Device σ) {t : Turn τ σ} {name : String}
    (h : IsAssignable t.own.values name) (text : String) :
    let short := processFrame dev t (.ok (shortForm name text))
    let full := processFrame dev t (.ok (fullForm name text))
    (SameEffect short full ↔ t.conn.isClosed = true ∨ isBlankLine text.toList = false) ∧
      (t.conn.isClosed = true ∨ isBlankLine text.toList = false → short = full) ∧
      (t.conn.isClosed = false → isBlankLine text.toList = true →
        IsAnswered t.conn short.conn ∧ full = t.onConn countParseError) := by
  intro short full
  have hsame : t.conn.isClosed = true ∨ isBlankLine text.toList = false → short = full := by
    intro hcase
    by_cases hclosed : t.conn.isClosed = true
    · simp only [short, full, processFrame, if_pos hclosed]
    · have hopen : t.conn.isClosed = false := by simpa using hclosed
      simp only [short, full, processFrame_ok dev hopen]
      exact processLine_short_eq_full dev h (hcase.resolve_left hclosed)
  have hblank : t.conn.isClosed = false → isBlankLine text.toList = true →
      IsAnswered t.conn short.conn ∧ full = t.onConn countParseError := by
    intro hopen htext
    simp only [short, full, processFrame_ok dev hopen]
    exact ⟨isAnswered_processLine dev t (Record.parse_short h.noReply h.noKeyword text) rfl,
      processLine_full_of_blank dev name t htext⟩
  refine ⟨⟨fun heffect => ?_, fun hcase => ?_⟩, hsame, hblank⟩
  · -- an answer shows in the output, and what is only counted does not
    by_contra hcase
    rw [not_or, Bool.not_eq_true, Bool.not_eq_false] at hcase
    obtain ⟨hanswered, hfull⟩ := hblank hcase.1 hcase.2
    have hout : full.conn.output = t.conn.output := by
      rw [hfull]
      exact output_countParseError t.conn
    exact hanswered.output_ne (heffect.output.trans hout)
  · rw [hsame hcase]
    exact ⟨rfl, rfl, rfl, rfl⟩

/-- A name that needs quotes, and a text between blanks. -/
theorem short_iff_full_of_text :
    let target : Value := { name := "TEL TARGET", description := "name of the target",
                            flags := { writable := true }, contents := .scalar (.string "") }
    let t : Turn Unit Unit := ⟨.inMemory 1 .client "ui" 0, ⟨⟨[target]⟩, ()⟩⟩
    IsAssignable t.own.values "TEL TARGET" ∧
      shortForm "TEL TARGET" "  M 31 " = "\"TEL TARGET\"   M 31 " ∧
      fullForm "TEL TARGET" "  M 31 " = "X \"TEL TARGET\" =   M 31 " ∧
      processFrame Device.passive t (.ok "\"TEL TARGET\"   M 31 ") =
        processFrame Device.passive t (.ok "X \"TEL TARGET\" =   M 31 ") := by
  intro target t
  have hname : IsAssignable t.own.values "TEL TARGET" :=
    ⟨⟨target, rfl, rfl⟩, by decide, by decide, by decide⟩
  exact ⟨hname, rfl, rfl, (short_iff_full Device.passive hname "  M 31 ").2.1 (.inr (by decide))⟩

/-- To assign an empty text is possible in the short form only. -/
theorem short_ne_full_of_no_text :
    let target : Value := { name := "TARGET", description := "name of the target",
                            flags := { writable := true }, contents := .scalar (.string "M31") }
    let t : Turn Unit Unit := ⟨.inMemory 1 .client "ui" 0, ⟨⟨[target]⟩, ()⟩⟩
    t.conn.isClosed = false ∧ IsAssignable t.own.values "TARGET" ∧
      shortForm "TARGET" "" = "TARGET " ∧ fullForm "TARGET" "" = "X TARGET = " ∧
      (processFrame Device.passive t (.ok "TARGET ")).own.values ≠ t.own.values ∧
      (processFrame Device.passive t (.ok "X TARGET = ")).own.values = t.own.values ∧
      ¬ SameEffect (processFrame Device.passive t (.ok "TARGET "))
        (processFrame Device.passive t (.ok "X TARGET = ")) := by
  intro target t
  have hname : IsAssignable t.own.values "TARGET" :=
    ⟨⟨target, rfl, rfl⟩, by decide, by decide, by decide⟩
  have hchanged : (processFrame Device.passive t (.ok "TARGET ")).own.values =
      ⟨[{ target with contents := .scalar (.string ""), dirty := true }]⟩ := rfl
  have hkept : (processFrame Device.passive t (.ok "X TARGET = ")).own.values = ⟨[target]⟩ := rfl
  have hne : (⟨[{ target with contents := .scalar (.string ""), dirty := true }]⟩ : Registry) ≠
      ⟨[target]⟩ := by
    intro heq
    simp [target] at heq
  refine ⟨rfl, hname, rfl, rfl, hchanged ▸ hne, hkept, fun heffect => hne ?_⟩
  rw [← hchanged, heffect.values, hkept]

end Connection

end Observatory
