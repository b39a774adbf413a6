import Observatory.Proofs.Connection.Output
import Observatory.Proofs.Value.Registry
import Observatory.Connection.Dispatch
/-!
# Rulings on requests to change a value

A peer may ask for a change of one of our values. The change is made on a copy, the back end has a
say, and only then does the copy take the place of the value. There are five ways to be refused.

* `Registry.Replaces`, `Registry.replaces_put` — one value in the place of another one.
* `Connection.Ruled`, `Connection.ruled_receiveSet` — what becomes of a request, by who rules on it.
* `Connection.reply_agrees_with_effect` — there is one answer, and it says what was done.
-/

namespace Observatory

/-! ## One value in the place of another -/

/-- The first value of a name gave way to another one, and all other values stayed. -/
def Registry.Replaces (name : String) (current updated : Value) (r s : Registry) : Prop :=
  ∃ before behind, r.values = before ++ current :: behind ∧ (∀ v ∈ before, v.name ≠ name) ∧
    current.name = name ∧ s.values = before ++ updated :: behind

namespace Registry

theorem replaceFirst_append {name : String} {current updated : Value} {before behind : List Value}
    (hbefore : ∀ v ∈ before, v.name ≠ name) (hcurrent : current.name = name) :
    replaceFirst name updated (before ++ current :: behind) = before ++ updated :: behind := by
  induction before with
  | nil => simp [replaceFirst, hcurrent]
  | cons v vs ih =>
    have hv : (v.name == name) = false := by simpa using hbefore v List.mem_cons_self
    rw [List.cons_append, replaceFirst, hv, if_neg Bool.false_ne_true,
      ih fun w hw => hbefore w (List.mem_cons_of_mem _ hw)]
    rfl

/-- Only the value that is found under the name gives way. -/
theorem replaces_put {r : Registry} {name : String} {current : Value}
    (h : r.get? name = some current) (updated : Value) :
    r.Replaces name current updated (r.put name updated) := by
  obtain ⟨hname, before, behind, hvalues, hbefore⟩ := List.find?_eq_some_iff_append.1 h
  have hne (v : Value) (hv : v ∈ before) : v.name ≠ name := by simpa using hbefore v hv
  have hcurrent : current.name = name := by simpa using hname
  refine ⟨before, behind, hvalues, hne, hcurrent, ?_⟩
  rw [put, hvalues, replaceFirst_append hne hcurrent]

end Registry

/-- A mark on a value that is marked already is no change. -/
theorem Value.markDirty_eq {v : Value} (h : v.dirty = true) : v.markDirty = v := by
  rw [markDirty, ← h]

namespace Connection

variable {τ σ : Type}

/-! ## Who rules -/

/-- A request names a value that peers may write, and makes another one of it. -/
structure Proposes (values : Registry) (name : String) (op : Operator) (text : String)
    (current updated : Value) : Prop where
  found : values.get? name = some current
  writable : current.flags.writable = true
  applied : current.applyText op text = .ok updated

theorem Proposes.unique {values : Registry} {name text : String} {op : Operator}
    {current updated current' updated' : Value}
    (h : Proposes values name op text current updated)
    (h' : Proposes values name op text current' updated') :
    current = current' ∧ updated = updated' := by
  obtain rfl : current = current' := Option.some.inj (h.found.symm.trans h'.found)
  exact ⟨rfl, Except.ok.inj (h.applied.symm.trans h'.applied)⟩

/-- What the back end says to a proposal. -/
def Says (dev : Device σ) (own : Local σ) (name : String) (op : Operator) (text : String)
    (verdict : Except String Unit) : Prop :=
  ∃ current updated, Proposes own.values name op text current updated ∧
    (dev.setValue current updated own.device).1 = verdict

/-- The back end says one thing only. -/
theorem Says.unique {dev : Device σ} {own : Local σ} {name text : String} {op : Operator}
    {verdict verdict' : Except String Unit} (h : Says dev own name op text verdict)
    (h' : Says dev own name op text verdict') : verdict = verdict' := by
  obtain ⟨current, updated, hproposes, rfl⟩ := h
  obtain ⟨current', updated', hproposes', rfl⟩ := h'
  obtain ⟨rfl, rfl⟩ := hproposes.unique hproposes'
  rfl

/-- The text of a request is none of the kind of the value that it is for. -/
def Misspelt (values : Registry) (name : String) (op : Operator) (text : String)
    (cause : ParseError) : Prop :=
  ∃ current, values.get? name = some current ∧ current.flags.writable = true ∧
    current.applyText op text = .error (.parse cause)

/-- What the back end is asked about was spelt right. -/
theorem Says.not_misspelt {dev : Device σ} {own : Local σ} {name text : String} {op : Operator}
    {verdict : Except String Unit} (h : Says dev own name op text verdict) (cause : ParseError) :
    ¬ Misspelt own.values name op text cause := by
  rintro ⟨current, hfound, -, happly⟩
  obtain ⟨current', updated, hproposes, -⟩ := h
  obtain rfl : current = current' := Option.some.inj (hfound.symm.trans hproposes.found)
  exact absurd hproposes.applied (by simp [happly])

theorem Misspelt.unique {values : Registry} {name text : String} {op : Operator}
    {cause cause' : ParseError} (h : Misspelt values name op text cause)
    (h' : Misspelt values name op text cause') : cause = cause' := by
  obtain ⟨current, hfound, -, happly⟩ := h
  obtain ⟨current', hfound', -, happly'⟩ := h'
  obtain rfl : current = current' := Option.some.inj (hfound.symm.trans hfound')
  exact OperationError.parse.inj (Except.error.inj (happly.symm.trans happly'))

/-- What becomes of a request to change a value: the turn after it, and what was malformed. -/
inductive Ruled (dev : Device σ) (name : String) (op : Operator) (text : String) (t : Turn τ σ) :
    Turn τ σ × Option ParseError → Prop
  /-- There is no such value, peers may not write it, or the operator cannot do it. -/
  | impossible (e : OperationError) (h : ∀ verdict, ¬ Says dev t.own name op text verdict)
    (hspelt : ∀ cause, ¬ Misspelt t.own.values name op text cause) :
    Ruled dev name op text t (t.reply (-3) e.message, none)
  | misspelt {cause : ParseError} (h : Misspelt t.own.values name op text cause) :
    Ruled dev name op text t (t.reply (-3) cause.message, some cause)
  | vetoed {current updated : Value} {reason : String}
    (h : Proposes t.own.values name op text current updated)
    (hverdict : (dev.setValue current updated t.own.device).1 = .error reason) :
    Ruled dev name op text t
      (Turn.reply (-1) reason
        ⟨t.conn, t.own.values, (dev.setValue current updated t.own.device).2⟩, none)
  | granted {current updated : Value} (h : Proposes t.own.values name op text current updated)
    (hverdict : (dev.setValue current updated t.own.device).1 = .ok ()) :
    Ruled dev name op text t
      ((Turn.reply 0 "OK" ⟨t.conn, t.own.values.put name updated,
        (dev.setValue current updated t.own.device).2⟩).onConn
          (·.emit (.valueSet t.conn.id name)), none)

/-- A request that makes no other value of the one it names gets no further. -/
theorem not_says_of_applyText {dev : Device σ} {own : Local σ} {name text : String} {op : Operator}
    {current : Value} (hfound : own.values.get? name = some current)
    (h : current.flags.writable = true → ∃ e, current.applyText op text = .error e)
    (verdict : Except String Unit) : ¬ Says dev own name op text verdict := by
  rintro ⟨current', updated, hproposes, -⟩
  obtain rfl : current = current' := Option.some.inj (hfound.symm.trans hproposes.found)
  obtain ⟨e, he⟩ := h hproposes.writable
  exact absurd hproposes.applied (by simp [he])

/-- **A request to change a value** is ruled on in one of these ways. -/
theorem ruled_receiveSet (dev : Device σ) (name : String) (op : Operator) (text : String)
    (t : Turn τ σ) : Ruled dev name op text t (receiveSet dev name op text t) := by
  unfold receiveSet
  dsimp only
  split
  · next hnone =>
    refine .impossible _ ?_ ?_
    · rintro verdict ⟨current, updated, h, -⟩
      exact absurd h.found (by simp [hnone])
    · rintro cause ⟨current, hfound, -⟩
      exact absurd hfound (by simp [hnone])
  · next current hfound =>
    split
    · next hprotected =>
      have hno : current.flags.writable ≠ true := by simpa using hprotected
      refine .impossible _ (not_says_of_applyText hfound fun hyes => absurd hyes hno) ?_
      rintro cause ⟨current', hfound', hyes, -⟩
      obtain rfl : current = current' := Option.some.inj (hfound.symm.trans hfound')
      exact hno hyes
    · next hprotected =>
      have hwritable : current.flags.writable = true := by simpa using hprotected
      split
      · next cause happly => exact .misspelt ⟨current, hfound, hwritable, happly⟩
      · next e hother happly =>
        refine .impossible _ (not_says_of_applyText hfound fun _ => ⟨e, happly⟩) ?_
        rintro cause ⟨current', hfound', -, hmisspelt⟩
        obtain rfl : current = current' := Option.some.inj (hfound.symm.trans hfound')
        exact hother cause (Except.error.inj (happly.symm.trans hmisspelt))
      · next updated happly =>
        have hproposes : Proposes t.own.values name op text current updated :=
          ⟨hfound, hwritable, happly⟩
        split
        · next reason hverdict => exact .vetoed hproposes hverdict
        · next hverdict =>
          rw [Value.markDirty_eq (Value.becomes_of_applyText True happly).2]
          exact .granted hproposes hverdict

/-! ## Answers and effects -/

/-- **The answer to a request** to change a value agrees with its effect, for every registry and
whatever the back end says. There is one reply. Its code is 0 exactly when the value is there and
may be written, the change succeeds on a copy of it, and the back end accepts the copy; then the
copy, which is marked, takes the place of the value, and one event tells of it. Otherwise no value
is touched and nothing is told; the code is -1 if the back end refused, and -3 in all other
cases. What counts as a malformed record is a text that the value cannot be made of. -/
theorem reply_agrees_with_effect (dev : Device σ) (name : String) (op : Operator) (text : String)
    (t : Turn τ σ) :
    let after := (dispatch dev (.set name op text) t).1
    ∃ code reason, after.conn.output = t.conn.output ++ recordBytes [.reply code reason] ∧
      (code = 0 ↔ Says dev t.own name op text (.ok ())) ∧
      (∀ current updated, Proposes t.own.values name op text current updated →
        (dev.setValue current updated t.own.device).1 = .ok () →
          t.own.values.Replaces name current updated after.own.values ∧ updated.dirty = true ∧
            after.conn.events = t.conn.events ++ [.valueSet t.conn.id name]) ∧
      (¬ Says dev t.own name op text (.ok ()) →
        after.own.values = t.own.values ∧ after.conn.events = t.conn.events ∧
          ((∃ veto, Says dev t.own name op text (.error veto)) → code = -1) ∧
          ((¬ ∃ veto, Says dev t.own name op text (.error veto)) → code = -3)) ∧
      ∀ cause, (dispatch dev (.set name op text) t).2 = some cause ↔
        Misspelt t.own.values name op text cause := by
  have hruled : Ruled dev name op text t (dispatch dev (.set name op text) t) :=
    ruled_receiveSet dev name op text t
  have hwritten (code : Int32) (reason : String) (own : Local σ) :
      ((Turn.mk t.conn own).reply code reason).conn.output =
        t.conn.output ++ recordBytes [.reply code reason] := by
    rw [Turn.reply, Turn.onConn, sendReply, send_eq]
  dsimp only
  generalize dispatch dev (.set name op text) t = result at hruled ⊢
  cases hruled with
  | impossible e h hspelt =>
    refine ⟨-3, e.message, hwritten _ _ _, iff_of_false (by decide) (h _), ?_, ?_, ?_⟩
    · exact fun current updated hproposes hok => absurd ⟨_, _, hproposes, hok⟩ (h _)
    · exact fun _ => ⟨rfl, rfl, fun ⟨_, hsaid⟩ => absurd hsaid (h _), fun _ => rfl⟩
    · exact fun cause => iff_of_false nofun (hspelt cause)
  | @misspelt cause h =>
    have hno (verdict : Except String Unit) : ¬ Says dev t.own name op text verdict :=
      fun hsaid => hsaid.not_misspelt cause h
    refine ⟨-3, cause.message, hwritten _ _ _, iff_of_false (by decide) (hno _), ?_, ?_, ?_⟩
    · exact fun current updated hproposes hok => absurd ⟨_, _, hproposes, hok⟩ (hno _)
    · exact fun _ => ⟨rfl, rfl, fun ⟨_, hsaid⟩ => absurd hsaid (hno _), fun _ => rfl⟩
    · exact fun cause' => ⟨fun heq => Option.some.inj heq ▸ h, fun h' => by rw [h.unique h']⟩
  | @vetoed current updated reason h hverdict =>
    have hsaid : Says dev t.own name op text (.error reason) := ⟨current, updated, h, hverdict⟩
    have hno : ¬ Says dev t.own name op text (.ok ()) := fun hok => by cases hsaid.unique hok
    refine ⟨-1, reason, hwritten _ _ _, iff_of_false (by decide) hno, ?_, ?_, ?_⟩
    · exact fun current updated hproposes hok => absurd ⟨_, _, hproposes, hok⟩ hno
    · exact fun _ => ⟨rfl, rfl, fun _ => rfl, fun hnone => absurd ⟨_, hsaid⟩ hnone⟩
    · exact fun cause => iff_of_false nofun (hsaid.not_misspelt cause)
  | @granted current updated h hverdict =>
    have hok : Says dev t.own name op text (.ok ()) := ⟨current, updated, h, hverdict⟩
    refine ⟨0, "OK", hwritten _ _ _, iff_of_true rfl hok, ?_, fun hno => absurd hok hno, ?_⟩
    · intro current' updated' hproposes _
      obtain ⟨rfl, rfl⟩ := h.unique hproposes
      exact ⟨Registry.replaces_put h.found _, (Value.becomes_of_applyText True h.applied).2, rfl⟩
    · exact fun cause => iff_of_false nofun (hok.not_misspelt cause)

/-- The three codes as they are written. -/
example : (Record.reply 0 "OK").toLine = "+000 \"OK\"" ∧
    (Record.reply (-1) "stuck").toLine = "-001 \"stuck\"" ∧
    (Record.reply (-3) "").toLine = "-003 \"\"" := ⟨rfl, rfl, rfl⟩

end Connection

end Observatory
