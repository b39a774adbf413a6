import Observatory.Proofs.Connection.Acts
import Observatory.Proofs.Value.WireText
/-!
# What the peer makes of what is written

Everything a connection writes beside its commands is the line of a plain record, and a plain
record is read as a record of the same sort: what is pushed is never taken for a request, and
only an answer is taken for a reply.

* `Record.IsPlain.read` — how a plain record is read.
* `Connection.Serves.writes` — quiet acts write plain records, with one reply for each answer.
-/

namespace Observatory

open Text (OneLine)

/-! ## Reading lines -/

/-- The record that a line is read as, however long it is. -/
def readLine (line : Bytes) : Option Record :=
  Connection.recordOf? (Framing.frameOf line.length line)

theorem readLine_lineBytes {text : List Char} (h : OneLine text) :
    readLine (lineBytes text) = (Record.parseChars text).toOption := by
  unfold readLine lineBytes
  rw [Framing.frameOf_encode _ h, if_neg (Nat.lt_irrefl _)]
  simp [Connection.recordOf?, Record.parse]

/-! ## Plain records -/

namespace Record

/-- The name of the value that a record announces or pushes. -/
def about? : Record → Option String
  | value name _ => some name
  | metaInfo _ name _ => some name
  | symbolInfo name _ => some name
  | _ => none

/-- A record that a connection writes beside commands. -/
def IsPlain : Record → Prop
  | value _ text => OneLine text.toList
  | technical text => OneLine text.toList
  | set _ _ _ => False
  | command _ _ => False
  | _ => True

theorem IsPlain.oneLine {r : Record} (h : r.IsPlain) : OneLine r.encode := by
  cases r with
  | value name text => exact oneLine_value name h
  | metaInfo code name description => exact oneLine_metaInfo code name description
  | symbolInfo name symbol => exact oneLine_symbolInfo name symbol
  | status bits => exact oneLine_status bits
  | blocking bits => exact oneLine_blocking bits
  | message m => exact oneLine_message m
  | technical text => exact oneLine_technical h
  | reply code reason => exact oneLine_reply code reason
  | set _ _ _ => exact h.elim
  | command _ _ => exact h.elim

/-- A plain record is read as a record of the same sort, about the same value. -/
theorem IsPlain.read {r : Record} (h : r.IsPlain) : ∃ s, parseChars r.encode = .ok s ∧
    s.isReply = r.isReply ∧ s.isRequest = false ∧ s.about? = r.about? := by
  cases r with
  | value name text => exact ⟨_, parseChars_value_trim name text, rfl, rfl, rfl⟩
  | metaInfo code name description =>
    exact ⟨_, parseChars_metaInfo code name description, rfl, rfl, rfl⟩
  | symbolInfo name symbol => exact ⟨_, parseChars_symbolInfo name symbol, rfl, rfl, rfl⟩
  | status bits => exact ⟨_, parseChars_status bits, rfl, rfl, rfl⟩
  | blocking bits => exact ⟨_, parseChars_blocking bits, rfl, rfl, rfl⟩
  | message m => exact ⟨_, parseChars_message m, rfl, rfl, rfl⟩
  | technical text => exact ⟨_, parseChars_technical_trim text, rfl, rfl, rfl⟩
  | reply code reason => exact ⟨_, parseChars_reply code reason, rfl, rfl, rfl⟩
  | set _ _ _ => exact h.elim
  | command _ _ => exact h.elim

theorem IsNews.isPlain {r : Record} (h : r.IsNews) : r.IsPlain := by
  cases r <;> first | exact h | trivial

theorem IsNews.isReply {r : Record} (h : r.IsNews) : r.isReply = false := by
  cases r <;> first | rfl | exact h.elim

theorem IsNews.about? {r : Record} (h : r.IsNews) : r.about? = none := by
  cases r <;> first | rfl | exact h.elim

end Record

namespace Value

theorem isPlain_of_mem_pushRecords {v : Value} {announced : List String} {r : Record}
    (h : r ∈ v.pushRecords announced) : r.IsPlain ∧ r.isReply = false := by
  have hmeta (r : Record) (h : r ∈ v.metaRecords) : r.IsPlain ∧ r.isReply = false := by
    unfold metaRecords at h
    rcases List.mem_cons.1 h with rfl | h
    · exact ⟨trivial, rfl⟩
    · split at h
      · obtain ⟨symbol, -, rfl⟩ := List.mem_map.1 h
        exact ⟨trivial, rfl⟩
      · cases h
  unfold pushRecords at h
  rcases List.mem_append.1 h with h | h
  · split at h
    · cases h
    · exact hmeta r h
  · rw [List.mem_singleton.1 h]
    exact ⟨v.oneLine_text, rfl⟩

end Value

/-! ## Quiet acts -/

namespace Connection

variable {τ : Type}

/-- Plain records go to the end of the output, with so many replies among them. -/
def Writes (replies : Nat) (c d : Connection τ) : Prop :=
  ∃ records : List Record, d.output = c.output ++ recordBytes records ∧
    (∀ r ∈ records, r.IsPlain) ∧ records.countP Record.isReply = replies

theorem Writes.of_same {c d : Connection τ} (h : d.output = c.output) : Writes 0 c d :=
  ⟨[], by simp [h], by simp, rfl⟩

theorem Writes.trans {m n : Nat} {c d e : Connection τ} (h : Writes m c d) (h' : Writes n d e) :
    Writes (m + n) c e := by
  obtain ⟨rs, hrs, hplain, hcount⟩ := h
  obtain ⟨ss, hss, hplain', hcount'⟩ := h'
  refine ⟨rs ++ ss, ?_, fun r hr => ?_, by rw [List.countP_append, hcount, hcount']⟩
  · rw [hss, hrs, recordBytes_append, List.append_assoc]
  · rcases List.mem_append.1 hr with hr | hr
    · exact hplain r hr
    · exact hplain' r hr

theorem Does.writes {a : Act} {c d : Connection τ} (h : Does c a d) (hquiet : a.isQuiet = true) :
    Writes (if a.isAnswer then 1 else 0) c d := by
  cases h with
  | push v =>
    rw [sendValue_eq]
    refine ⟨_, rfl, fun r hr => (Value.isPlain_of_mem_pushRecords hr).1, ?_⟩
    show List.countP _ _ = 0
    rw [List.countP_eq_zero]
    intro r hr
    rw [(Value.isPlain_of_mem_pushRecords hr).2]
    exact Bool.false_ne_true
  | @tell r hr =>
    rw [send_eq]
    exact ⟨[r], rfl, by simpa using hr.isPlain, by simp [hr.isReply, Act.isAnswer]⟩
  | answer code reason =>
    rw [sendReply, send_eq]
    exact ⟨[.reply code reason], rfl, by simp [Record.IsPlain], rfl⟩
  | note _ _ => exact .of_same rfl
  | adjust h => exact .of_same h.output
  | _ => simp [Act.isQuiet] at hquiet

/-- **Quiet acts** write plain records, with one reply for each answer. -/
theorem Serves.writes {n : Nat} {c d : Connection τ} (h : Serves n c d) : Writes n c d := by
  obtain ⟨acts, h, hquiet, rfl⟩ := h
  induction h with
  | nil => exact .of_same rfl
  | @cons c d e a acts hd _ ih =>
    have hfirst := hd.writes (hquiet a List.mem_cons_self)
    have hrest := ih fun b hb => hquiet b (List.mem_cons_of_mem _ hb)
    rw [List.countP_cons, Nat.add_comm]
    exact hfirst.trans hrest

theorem ServesOrCloses.writes {n : Nat} {c d : Connection τ} (h : ServesOrCloses n c d) :
    Writes n c d := by
  rcases h with h | ⟨e, reason, h, -, -, rfl⟩
  · exact h.writes
  · exact h.writes

end Connection

end Observatory
