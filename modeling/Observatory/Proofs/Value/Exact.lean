import Observatory.Proofs.Value.AllOrNothing
import Observatory.Proofs.Value.Shifts
/-!
# Whole numbers, exactly or not at all

The operators on whole numbers work on words of 64 bits, and a result for a word of 32 bits is
narrowed after that. Held against the operators on unbounded whole numbers, a call is carried out
exactly when the type of the value holds the result, and what is stored then is the result: nothing
wraps around and nothing is cut to the end of a range.

* `Scalar.Exact` — an outcome that is the result, or is refused because the type does not hold it.
* `Scalar.exact_apply` — every operator on whole cells has such an outcome.
* `Value.Call.exact_or_refused` — so has every call with an operator and a whole operand, unless
  the operand is a text that is no number of the type.
-/

namespace Observatory

/-! ## Words -/

namespace Number

theorem exists_int32? {i : Int} (h : Base.integer.Fits i) : ∃ v, int32? i = some v ∧ v.toInt = i :=
  ⟨Int32.ofIntLE i h.1 h.2, dif_pos h, Int32.toInt_ofIntLE⟩

theorem int32?_of_not_fits {i : Int} (h : ¬ Base.integer.Fits i) : int32? i = none := dif_neg h

theorem exists_int64? {i : Int} (h : Base.long.Fits i) : ∃ v, int64? i = some v ∧ v.toInt = i :=
  ⟨Int64.ofIntLE i h.1 h.2, dif_pos h, Int64.toInt_ofIntLE⟩

theorem int64?_of_not_fits {i : Int} (h : ¬ Base.long.Fits i) : int64? i = none := dif_neg h

theorem exists_of_ofText? {text : List Char} {i : Int} (h : ofText? text = some i) :
    ∃ token rest, Token.next text = .ok (token, rest) ∧ Token.atEnd rest = true ∧
      readInt token = some i := by
  unfold ofText? at h
  split at h
  · next token rest hnext =>
    split at h
    · next hend => exact ⟨token, rest, hnext, hend, h⟩
    · cases h
  · cases h

end Number

theorem Base.fits_long_of_integer {i : Int} (h : Base.integer.Fits i) : Base.long.Fits i :=
  ⟨Int.le_trans (by decide) h.1, Int.le_trans h.2 (by decide)⟩

/-! ## Cells -/

namespace Scalar

/-- The outcome is a cell of the type with the number in it or, when the type does not hold the
number, a refusal because of the range. -/
def Exact (b : Base) (i : Int) : Except OperationError Scalar → Prop
  | .ok cell => cell.whole? = some (b, i)
  | .error e => ¬ b.Fits i ∧ ∃ x, e = .outOfRange x

theorem combineLong_of_fits {op : Operator} {m k : Int64}
    (h : Base.long.Fits (combineInt op m.toInt k.toInt)) :
    ∃ v, combineLong op m k = .ok v ∧ v.toInt = combineInt op m.toInt k.toInt := by
  obtain ⟨v, hv, hvalue⟩ := Number.exists_int64? h
  refine ⟨v, ?_, hvalue⟩
  rw [combineLong, hv]

theorem combineLong_of_not_fits {op : Operator} {m k : Int64}
    (h : ¬ Base.long.Fits (combineInt op m.toInt k.toInt)) :
    combineLong op m k = .error (.outOfRange (Number.ofInt m.toInt)) := by
  rw [combineLong, Number.int64?_of_not_fits h]

/-- A word of 32 bits is combined as one of 64 bits, and the result is narrowed. A result that fits
the 32 bits fits the 64 bits in between. -/
theorem exact_apply_integer {v : Int32} {s : Scalar} {u : Int64} (op : Operator)
    (hu : s.wholeOperand? = some u) :
    Exact .integer (combineInt op v.toInt u.toInt) ((integer v).apply op s) := by
  rw [← Int32.toInt_toInt64 v]
  by_cases hlong : Base.long.Fits (combineInt op v.toInt64.toInt u.toInt)
  · obtain ⟨result, hresult, hvalue⟩ := combineLong_of_fits hlong
    rw [← hvalue]
    by_cases hfits : Base.integer.Fits result.toInt
    · obtain ⟨w, hw, hnarrow⟩ := Number.exists_int32? hfits
      have happly : (integer v).apply op s = .ok (integer w) := by
        simp only [apply, hu, bind, Except.bind, hresult, hw]
        rfl
      rw [happly]
      exact congrArg (fun i => some (Base.integer, i)) hnarrow
    · have happly : (integer v).apply op s =
          .error (.outOfRange (Number.ofInt result.toInt)) := by
        simp only [apply, hu, bind, Except.bind, hresult, Number.int32?_of_not_fits hfits]
        rfl
      rw [happly]
      exact ⟨hfits, _, rfl⟩
  · have happly : (integer v).apply op s =
        .error (.outOfRange (Number.ofInt v.toInt64.toInt)) := by
      simp only [apply, hu, bind, Except.bind, combineLong_of_not_fits hlong]
    rw [happly]
    exact ⟨fun hfits => hlong (Base.fits_long_of_integer hfits), _, rfl⟩

theorem exact_apply_long {v : Int64} {s : Scalar} {u : Int64} (op : Operator)
    (hu : s.wholeOperand? = some u) :
    Exact .long (combineInt op v.toInt u.toInt) ((long v).apply op s) := by
  by_cases hlong : Base.long.Fits (combineInt op v.toInt u.toInt)
  · obtain ⟨result, hresult, hvalue⟩ := combineLong_of_fits hlong
    have happly : (long v).apply op s = .ok (long result) := by
      simp only [apply, hu, bind, Except.bind, hresult]
      rfl
    rw [happly]
    exact congrArg (fun i => some (Base.long, i)) hvalue
  · have happly : (long v).apply op s = .error (.outOfRange (Number.ofInt v.toInt)) := by
      simp only [apply, hu, bind, Except.bind, combineLong_of_not_fits hlong]
    rw [happly]
    exact ⟨hlong, _, rfl⟩

/-- **An operator on cells is exact.** -/
theorem exact_apply {a s : Scalar} {b b' : Base} {n k : Int} (op : Operator)
    (ha : a.whole? = some (b, n)) (hs : s.whole? = some (b', k)) :
    Exact b (combineInt op n k) (a.apply op s) := by
  obtain ⟨u, hu, rfl⟩ := wholeOperand?_eq hs
  rcases whole?_cases ha with ⟨v, rfl, rfl, rfl⟩ | ⟨v, rfl, rfl, rfl⟩
  · exact exact_apply_integer op hu
  · exact exact_apply_long op hu

section Reading

variable {a : Scalar} {b : Base} {n k : Int} {text token rest : List Char}

theorem parse_of_fits (ha : a.whole? = some (b, n)) (hnext : Token.next text = .ok (token, rest))
    (hread : Number.readInt token = some k) (h : b.Fits k) :
    ∃ s, s.whole? = some (b, k) ∧ parse a.base text = .ok (s, rest) := by
  rcases whole?_cases ha with ⟨v, rfl, rfl, rfl⟩ | ⟨v, rfl, rfl, rfl⟩
  · obtain ⟨w, hw, rfl⟩ := Number.exists_int32? h
    refine ⟨integer w, rfl, ?_⟩
    simp only [base, parse, Token.nextAs, hnext, Token.toInt32, Number.readInt32, hread,
      Option.bind_some, hw, bind, Except.bind]
    rfl
  · obtain ⟨w, hw, rfl⟩ := Number.exists_int64? h
    refine ⟨long w, rfl, ?_⟩
    simp only [base, parse, Token.nextAs, hnext, Token.toInt64, Number.readInt64, hread,
      Option.bind_some, hw, bind, Except.bind]
    rfl

theorem parse_of_not_fits (ha : a.whole? = some (b, n))
    (hnext : Token.next text = .ok (token, rest)) (hread : Number.readInt token = some k)
    (h : ¬ b.Fits k) : parse a.base text = .error (.invalidInteger (String.ofList token)) := by
  rcases whole?_cases ha with ⟨v, rfl, rfl, rfl⟩ | ⟨v, rfl, rfl, rfl⟩
  · simp only [base, parse, Token.nextAs, hnext, Token.toInt32, Number.readInt32, hread,
      Option.bind_some, Number.int32?_of_not_fits h, bind, Except.bind]
    rfl
  · simp only [base, parse, Token.nextAs, hnext, Token.toInt64, Number.readInt64, hread,
      Option.bind_some, Number.int64?_of_not_fits h, bind, Except.bind]
    rfl

end Reading

end Scalar

/-! ## Contents -/

namespace Contents

/-- The whole number that contents stand for as an operand: that of a cell for whole numbers, or
the index of a selection. -/
def number? : Contents → Option Int
  | scalar cell => cell.whole?.map Prod.snd
  | selection s => some s.index.toInt
  | _ => none

/-- An operand that stands for a whole number is taken as a cell with that number. -/
theorem exists_cell_of_number? {operand : Contents} {k : Int} (h : operand.number? = some k)
    (op : Operator) (a : Scalar) :
    ∃ s b, s.whole? = some (b, k) ∧ (scalar a).apply op operand = scalar <$> a.apply op s := by
  cases operand with
  | scalar s =>
    obtain ⟨⟨b, i⟩, hs, rfl⟩ := Option.map_eq_some_iff.1 h
    exact ⟨s, b, hs, rfl⟩
  | selection s =>
    cases h
    exact ⟨.integer s.index, .integer, rfl, rfl⟩
  | _ => cases h

variable {a : Scalar} {b : Base} {n k : Int} {text : List Char}

theorem parse_scalar_of_whole? (ha : a.whole? = some (b, n)) (text : List Char) :
    (scalar a).parse text = (do
      let parsed ← Scalar.parse a.base text
      Token.finish parsed.2
      return scalar parsed.1) := by
  rcases Scalar.whole?_cases ha with ⟨v, rfl, -⟩ | ⟨v, rfl, -⟩ <;> rfl

theorem parse_of_fits (ha : a.whole? = some (b, n)) (hk : Number.ofText? text = some k)
    (h : b.Fits k) : ∃ s, s.whole? = some (b, k) ∧ (scalar a).parse text = .ok (scalar s) := by
  obtain ⟨token, rest, hnext, hend, hread⟩ := Number.exists_of_ofText? hk
  obtain ⟨s, hs, hparse⟩ := Scalar.parse_of_fits ha hnext hread h
  refine ⟨s, hs, ?_⟩
  rw [parse_scalar_of_whole? ha, hparse]
  simp only [bind, Except.bind, Token.finish, hend, if_true]
  rfl

theorem parse_of_not_fits (ha : a.whole? = some (b, n)) (hk : Number.ofText? text = some k)
    (h : ¬ b.Fits k) : ∃ token, (scalar a).parse text = .error (.invalidInteger token) := by
  obtain ⟨token, rest, hnext, -, hread⟩ := Number.exists_of_ofText? hk
  refine ⟨String.ofList token, ?_⟩
  rw [parse_scalar_of_whole? ha, Scalar.parse_of_not_fits ha hnext hread h]
  rfl

end Contents

/-! ## Calls -/

/-- How the operand of an operator is given: by what a value holds, or as a text. -/
inductive Operand where
  | held (contents : Contents)
  | written (text : String)

namespace Operand

/-- The whole number that an operand is. -/
def number? : Operand → Option Int
  | held contents => contents.number?
  | written text => Number.ofText? text.toList

/-- A text is read as a number of the type. An operand that is held need not be of the type. -/
def Suits (b : Base) : Operand → Prop
  | held _ => True
  | written text => ∀ k ∈ Number.ofText? text.toList, b.Fits k

/-- What an operator makes of a value with the operand. -/
def apply (op : Operator) (v : Value) : Operand → Except OperationError Value
  | held contents => v.apply op contents
  | written text => v.applyText op text

end Operand

namespace Value

/-- The value with another cell. -/
def withCell (v : Value) (cell : Scalar) : Value := v.withContents (.scalar cell)

theorem exists_cell_of_whole? {v : Value} {b : Base} {n : Int}
    (h : v.contents.whole? = some (b, n)) :
    ∃ a, v.contents = .scalar a ∧ a.whole? = some (b, n) := by
  cases hcontents : v.contents with
  | scalar a =>
    rw [hcontents] at h
    exact ⟨a, rfl, h⟩
  | _ => rw [hcontents] at h; cases h

section Operations

variable {v : Value} {b : Base} {n k : Int}

theorem exact_apply (op : Operator) {contents : Contents} (hv : v.contents.whole? = some (b, n))
    (hk : contents.number? = some k) :
    ∃ r, Scalar.Exact b (Scalar.combineInt op n k) r ∧ v.apply op contents = v.withCell <$> r := by
  obtain ⟨a, hcontents, ha⟩ := exists_cell_of_whole? hv
  obtain ⟨s, b', hs, happly⟩ := Contents.exists_cell_of_number? hk op a
  refine ⟨a.apply op s, Scalar.exact_apply op ha hs, ?_⟩
  rw [apply, hcontents, happly]
  cases a.apply op s <;> rfl

/-- A text is an operand of its own: it is read first, and only then combined. -/
theorem exact_applyText (op : Operator) {text : String} (hv : v.contents.whole? = some (b, n))
    (hk : Number.ofText? text.toList = some k) (hfits : b.Fits k) :
    ∃ r, Scalar.Exact b (Scalar.combineInt op n k) r ∧
      v.applyText op text = v.withCell <$> r := by
  obtain ⟨a, hcontents, ha⟩ := exists_cell_of_whole? hv
  obtain ⟨s, hs, hparse⟩ := Contents.parse_of_fits ha hk hfits
  unfold applyText
  split
  · next hop =>
    subst hop
    refine ⟨.ok s, hs, ?_⟩
    simp only [set, hcontents, hparse]
    rfl
  · have hnumber : (Contents.scalar s).number? = some k := by rw [Contents.number?, hs]; rfl
    have hshape : (operandShape v.contents).parse text.toList = .ok (.scalar s) := by
      rw [hcontents]
      exact hparse
    rw [hshape]
    exact exact_apply op hv hnumber

theorem applyText_of_not_fits (op : Operator) {text : String}
    (hv : v.contents.whole? = some (b, n)) (hk : Number.ofText? text.toList = some k)
    (hfits : ¬ b.Fits k) :
    ∃ token, v.applyText op text = .error (.parse (.invalidInteger token)) := by
  obtain ⟨a, hcontents, ha⟩ := exists_cell_of_whole? hv
  obtain ⟨token, hparse⟩ := Contents.parse_of_not_fits ha hk hfits
  refine ⟨token, ?_⟩
  unfold applyText
  split
  · simp only [set, hcontents, hparse]
    rfl
  · have hshape : (operandShape v.contents).parse text.toList = .error (.invalidInteger token) := by
      rw [hcontents]
      exact hparse
    rw [hshape]

end Operations

end Value

namespace Operand

variable {operand : Operand} {v : Value} {b : Base} {n k : Int}

theorem exact_apply (op : Operator) (hv : v.contents.whole? = some (b, n))
    (hk : operand.number? = some k) (hsuits : operand.Suits b) :
    ∃ r, Scalar.Exact b (Scalar.combineInt op n k) r ∧ operand.apply op v = v.withCell <$> r := by
  cases operand with
  | held contents => exact Value.exact_apply op hv hk
  | written text => exact Value.exact_applyText op hv hk (hsuits k hk)

theorem apply_of_not_suits (op : Operator) (hv : v.contents.whole? = some (b, n))
    (hk : operand.number? = some k) (hsuits : ¬ operand.Suits b) :
    ∃ token, operand.apply op v = .error (.parse (.invalidInteger token)) := by
  cases operand with
  | held contents => exact absurd trivial hsuits
  | written text =>
    have hfits : ¬ b.Fits k := by
      intro hfits
      refine hsuits fun i hi => ?_
      rwa [Option.some.inj (hk.symm.trans hi)] at hfits
    exact Value.applyText_of_not_fits op hv hk hfits

end Operand

namespace Value.Call

/-- The operator of a call with its operand, for the calls that apply one. -/
def operation? : Call → Option (Operator × Operand)
  | set text => some (.assign, .written text)
  | apply op operand => some (op, .held operand)
  | applyText op text => some (op, .written text)
  | setFrom other => some (.assign, .held other)
  | setDouble x => some (.assign, .held (.scalar (.double x)))
  | setInteger i => some (.assign, .held (.scalar (.integer i)))
  | setLong i => some (.assign, .held (.scalar (.long i)))
  | setBool v => some (.assign, .held (.scalar (.bool v)))
  | setString text => some (.assign, .held (.scalar (.string text)))
  | select _ | setItems _ _ | push _ => none

/-- An assignment is one of the operators, however it is called. -/
theorem attempt_of_operation? {call : Call} {op : Operator} {operand : Operand}
    (h : call.operation? = some (op, operand)) (v : Value) :
    call.mutation.attempt v = operand.apply op v := by
  cases call with
  | select _ | setItems _ _ | push _ => cases h
  | _ => cases h; rfl

/-- **Whole numbers are combined exactly, or not at all.** A call that applies an operator to a
value for whole numbers, with a whole number as the operand, is carried out exactly when the type of
the value holds the result in unbounded arithmetic. That number is stored then. Otherwise the value
stays as it was and the refusal names the range; and it names the text when that is no number of the
type. -/
theorem exact_or_refused {call : Call} {op : Operator} {operand : Operand} {v : Value} {b : Base}
    {n k : Int} (hcall : call.operation? = some (op, operand))
    (hv : v.contents.whole? = some (b, n)) (hk : operand.number? = some k) :
    (operand.Suits b →
      ((call.steps v).1.isOk = true ↔ b.Fits (Scalar.combineInt op n k)) ∧
      (b.Fits (Scalar.combineInt op n k) →
        ∃ cell : Scalar, cell.whole? = some (b, Scalar.combineInt op n k) ∧
          call.steps v = (.ok (), v.withCell cell)) ∧
      (¬ b.Fits (Scalar.combineInt op n k) →
        ∃ x, call.steps v = (.error (.outOfRange x), v))) ∧
    (¬ operand.Suits b →
      ∃ token, call.steps v = (.error (.parse (.invalidInteger token)), v)) := by
  have hsettles := settles_steps call v
  rw [attempt_of_operation? hcall] at hsettles
  constructor
  · intro hsuits
    obtain ⟨r, hr, happly⟩ := Operand.exact_apply op hv hk hsuits
    rw [happly] at hsettles
    cases r with
    | ok cell =>
      have hfits := Scalar.fits_of_whole? hr
      rw [show call.steps v = (.ok (), v.withCell cell) from hsettles]
      exact ⟨iff_of_true rfl hfits, fun _ => ⟨cell, hr, rfl⟩, fun h => absurd hfits h⟩
    | error e =>
      obtain ⟨hfits, x, rfl⟩ := hr
      rw [show call.steps v = (.error (.outOfRange x), v) from hsettles]
      exact ⟨iff_of_false Bool.false_ne_true hfits, fun h => absurd h hfits, fun _ => ⟨x, rfl⟩⟩
  · intro hsuits
    obtain ⟨token, happly⟩ := Operand.apply_of_not_suits op hv hk hsuits
    rw [happly] at hsettles
    exact ⟨token, hsettles⟩

/-- The smallest word of 64 bits has no negative, but taking it away from minus one leaves the
largest. -/
theorem exact_of_subtract_smallest :
    let count : Value := { name := "count", description := "frames since the start",
                           contents := .scalar (.long (-1)) }
    ∃ cell : Scalar, cell.whole? = some (.long, 9223372036854775807) ∧
      (applyText .subtract "-9223372036854775808").steps count = (.ok (), count.withCell cell) := by
  intro count
  have hcount : count.contents.whole? = some (.long, -1) := by decide
  have hnumber : (Operand.written "-9223372036854775808").number? =
      some (-9223372036854775808) := by
    decide +kernel
  have hsuits : (Operand.written "-9223372036854775808").Suits .long := by
    intro k hk
    obtain rfl := Option.some.inj (hnumber.symm.trans hk)
    exact ⟨by decide, by decide⟩
  have hexact := @exact_or_refused (applyText .subtract "-9223372036854775808") _ _ _ _ _ _ rfl
    hcount hnumber
  exact (hexact.1 hsuits).2.1 ⟨by decide, by decide⟩

end Value.Call

end Observatory
