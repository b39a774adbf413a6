import Observatory.Proofs.Value.Mutation
import Observatory.Proofs.Value.Registry
/-!
# Adding to whole numbers

An operand that is given as a text is added to a whole number, or taken away from it, without
rounding and without wrapping around: the request is refused unless the text is one whole number and
the exact result fits the type of the value.

* `Base.Fits` — the whole numbers that a type holds.
* `Value.whole?_of_applyText` — what a request that is not refused comes down to.
* `Registry.tally?` — the number that peers may change under a name.
-/

namespace Observatory

open Record (exists_of_bind)

/-! ## Words -/

namespace Number

theorem int32?_eq_some_iff {i : Int} {v : Int32} : int32? i = some v ↔ v.toInt = i := by
  constructor
  · intro h
    unfold int32? at h
    split at h
    · cases h
      exact Int32.toInt_ofIntLE
    · cases h
  · rintro rfl
    exact int32?_toInt v

theorem int64?_eq_some_iff {i : Int} {v : Int64} : int64? i = some v ↔ v.toInt = i := by
  constructor
  · intro h
    unfold int64? at h
    split at h
    · cases h
      exact Int64.toInt_ofIntLE
    · cases h
  · rintro rfl
    exact int64?_toInt v

/-- The whole number that a text is, as one token and nothing else. -/
def ofText? (text : List Char) : Option Int :=
  match Token.next text with
  | .ok (token, rest) => if Token.atEnd rest then readInt token else none
  | .error _ => none

end Number

theorem Token.readInt_of_toInt32 {token : List Char} {v : Int32} (h : toInt32 token = .ok v) :
    Number.readInt token = some v.toInt := by
  unfold toInt32 Number.readInt32 at h
  split at h
  · next u hu =>
    cases h
    obtain ⟨i, hi, hfits⟩ := Option.bind_eq_some_iff.1 hu
    rw [hi, Number.int32?_eq_some_iff.1 hfits]
  · cases h

theorem Token.readInt_of_toInt64 {token : List Char} {v : Int64} (h : toInt64 token = .ok v) :
    Number.readInt token = some v.toInt := by
  unfold toInt64 Number.readInt64 at h
  split at h
  · next u hu =>
    cases h
    obtain ⟨i, hi, hfits⟩ := Option.bind_eq_some_iff.1 hu
    rw [hi, Number.int64?_eq_some_iff.1 hfits]
  · cases h

/-! ## Cells -/

/-- The whole numbers that a type holds. -/
def Base.Fits (n : Int) : Base → Prop
  | .integer => Int32.minValue.toInt ≤ n ∧ n ≤ Int32.maxValue.toInt
  | .long => Int64.minValue.toInt ≤ n ∧ n ≤ Int64.maxValue.toInt
  | _ => False

namespace Scalar

/-- The whole number in a cell, with its type. -/
def whole? : Scalar → Option (Base × Int)
  | integer v => some (.integer, v.toInt)
  | long v => some (.long, v.toInt)
  | _ => none

theorem whole?_cases {s : Scalar} {b : Base} {n : Int} (h : s.whole? = some (b, n)) :
    (∃ v : Int32, s = integer v ∧ b = .integer ∧ n = v.toInt) ∨
      ∃ v : Int64, s = long v ∧ b = .long ∧ n = v.toInt := by
  cases s with
  | integer v => cases h; exact .inl ⟨v, rfl, rfl, rfl⟩
  | long v => cases h; exact .inr ⟨v, rfl, rfl, rfl⟩
  | _ => cases h

/-- What a cell holds fits its type. -/
theorem fits_of_whole? {s : Scalar} {b : Base} {n : Int} (h : s.whole? = some (b, n)) :
    b.Fits n := by
  rcases whole?_cases h with ⟨v, rfl, rfl, rfl⟩ | ⟨v, rfl, rfl, rfl⟩
  · exact ⟨Int32.minValue_le_toInt v, Int32.toInt_le v⟩
  · exact ⟨Int64.minValue_le_toInt v, Int64.toInt_le v⟩

/-- A cell for whole numbers is read from one token, which is a whole number. -/
theorem whole?_of_parse {a s : Scalar} {b : Base} {n : Int} {text rest : List Char}
    (ha : a.whole? = some (b, n)) (h : parse a.base text = .ok (s, rest)) :
    ∃ token k, Token.next text = .ok (token, rest) ∧ Number.readInt token = some k ∧
      s.whole? = some (b, k) := by
  rcases whole?_cases ha with ⟨v, rfl, rfl, rfl⟩ | ⟨v, rfl, rfl, rfl⟩
  · obtain ⟨⟨token, rest⟩, hnext, h⟩ := exists_of_bind h
    obtain ⟨cell, hcell, h⟩ := exists_of_bind h
    cases h
    obtain ⟨k, hk, rfl⟩ := exists_of_map hcell
    exact ⟨token, k.toInt, hnext, Token.readInt_of_toInt32 hk, rfl⟩
  · obtain ⟨⟨token, rest⟩, hnext, h⟩ := exists_of_bind h
    obtain ⟨cell, hcell, h⟩ := exists_of_bind h
    cases h
    obtain ⟨k, hk, rfl⟩ := exists_of_map hcell
    exact ⟨token, k.toInt, hnext, Token.readInt_of_toInt64 hk, rfl⟩

/-- Adding and taking away do not depend on where they start. -/
theorem combineInt_eq_add {op : Operator} (hop : op ≠ .assign) (n k : Int) :
    combineInt op n k = n + combineInt op 0 k := by
  cases op with
  | assign => exact absurd rfl hop
  | add => simp [combineInt]
  | subtract => simp [combineInt, Int.sub_eq_add_neg]

theorem toInt_of_combineLong {op : Operator} {m k v : Int64} (h : combineLong op m k = .ok v) :
    v.toInt = combineInt op m.toInt k.toInt := by
  unfold combineLong at h
  split at h
  · next u hu =>
    cases h
    exact Number.int64?_eq_some_iff.1 hu
  · cases h

/-- The operand of a whole number is taken as it is. -/
theorem wholeOperand?_eq {s : Scalar} {b : Base} {k : Int} (h : s.whole? = some (b, k)) :
    ∃ u, s.wholeOperand? = some u ∧ u.toInt = k := by
  rcases whole?_cases h with ⟨v, rfl, rfl, rfl⟩ | ⟨v, rfl, rfl, rfl⟩
  · exact ⟨v.toInt64, rfl, Int32.toInt_toInt64 v⟩
  · exact ⟨v, rfl, rfl⟩

/-- Whole numbers are combined without rounding and without wrapping around. -/
theorem whole?_of_apply {a s t : Scalar} {b b' : Base} {n k : Int} {op : Operator}
    (ha : a.whole? = some (b, n)) (hs : s.whole? = some (b', k)) (h : a.apply op s = .ok t) :
    t.whole? = some (b, combineInt op n k) := by
  obtain ⟨u, hu, rfl⟩ := wholeOperand?_eq hs
  rcases whole?_cases ha with ⟨v, rfl, rfl, rfl⟩ | ⟨v, rfl, rfl, rfl⟩
  · simp only [apply, hu] at h
    obtain ⟨operand, hoperand, h⟩ := exists_of_bind h
    cases hoperand
    obtain ⟨result, hresult, h⟩ := exists_of_bind h
    split at h
    · next w hw =>
      cases h
      show some (Base.integer, w.toInt) = _
      rw [Number.int32?_eq_some_iff.1 hw, toInt_of_combineLong hresult, Int32.toInt_toInt64]
    · cases h
  · simp only [apply, hu] at h
    obtain ⟨operand, hoperand, h⟩ := exists_of_bind h
    cases hoperand
    obtain ⟨result, hresult, h⟩ := exists_of_bind h
    cases h
    exact congrArg (fun i => some (Base.long, i)) (toInt_of_combineLong hresult)

end Scalar

/-! ## Values -/

/-- The whole number that a value holds, with its type. -/
def Contents.whole? : Contents → Option (Base × Int)
  | scalar cell => cell.whole?
  | _ => none

theorem Contents.fits_of_whole? {c : Contents} {b : Base} {n : Int} (h : c.whole? = some (b, n)) :
    b.Fits n := by
  cases c with
  | scalar cell => exact Scalar.fits_of_whole? h
  | _ => cases h

theorem Contents.whole?_of_parse {a : Scalar} {b : Base} {n : Int} {text : List Char}
    {operand : Contents} (ha : a.whole? = some (b, n)) (h : (scalar a).parse text = .ok operand) :
    ∃ s k, operand = scalar s ∧ Number.ofText? text = some k ∧ s.whole? = some (b, k) := by
  have hcell : (scalar a).parse text = (do
      let parsed ← Scalar.parse a.base text
      Token.finish parsed.2
      return scalar parsed.1) := by
    cases a with
    | string _ => cases ha
    | _ => rfl
  rw [hcell] at h
  obtain ⟨⟨s, rest⟩, hs, h⟩ := exists_of_bind h
  obtain ⟨_, hfinish, h⟩ := exists_of_bind h
  cases h
  obtain ⟨token, k, hnext, hread, hk⟩ := Scalar.whole?_of_parse ha hs
  refine ⟨s, k, rfl, ?_, hk⟩
  unfold Token.finish at hfinish
  split at hfinish
  · next hend =>
    unfold Number.ofText?
    rw [hnext]
    dsimp only
    rw [if_pos hend, hread]
  · cases hfinish

theorem Value.name_of_applyText {v w : Value} {op : Operator} {text : String}
    (h : v.applyText op text = .ok w) : w.name = v.name :=
  congrArg Profile.name (becomes_of_applyText True h).1.profile

theorem Value.flags_of_applyText {v w : Value} {op : Operator} {text : String}
    (h : v.applyText op text = .ok w) : w.flags = v.flags :=
  congrArg Profile.flags (becomes_of_applyText True h).1.profile

/-- **A shift is exact.** If a request to add or to take away is not refused, then its operand is a
whole number, and the value holds the exact result from then on. -/
theorem Value.whole?_of_applyText {v w : Value} {b : Base} {n : Int} {op : Operator} {text : String}
    (hop : op ≠ .assign) (hv : v.contents.whole? = some (b, n))
    (h : v.applyText op text = .ok w) : ∃ k, Number.ofText? text.toList = some k ∧
      w.contents.whole? = some (b, Scalar.combineInt op n k) := by
  obtain ⟨a, ha⟩ : ∃ a, v.contents = .scalar a := by
    cases hcontents : v.contents with
    | scalar a => exact ⟨a, rfl⟩
    | _ => rw [hcontents] at hv; cases hv
  unfold applyText at h
  rw [if_neg hop] at h
  rw [ha] at h hv
  split at h
  · next operand hoperand =>
    obtain ⟨s, k, rfl, htext, hs⟩ := Contents.whole?_of_parse hv hoperand
    obtain ⟨contents, hcontents, rfl⟩ := exists_of_map h
    rw [ha] at hcontents
    obtain ⟨t, ht, rfl⟩ := exists_of_map hcontents
    exact ⟨k, htext, Scalar.whole?_of_apply hv hs ht⟩
  · cases h

/-- One more than the largest number of a type is refused. -/
example :
    let level : Value := { name := "level", description := "level of the tank",
                           contents := .scalar (.integer 2147483647) }
    (level.applyText .add "1").isOk = false := by
  decide +kernel

/-! ## Registries -/

/-- The whole number of a name, if peers may write it, with its type. -/
def Registry.tally? (name : String) (r : Registry) : Option (Base × Int) :=
  (r.get? name).bind fun v => if v.flags.writable then v.contents.whole? else none

namespace Registry

theorem tally?_of_get? {name : String} {v : Value} {r : Registry} (h : r.get? name = some v) :
    r.tally? name = if v.flags.writable then v.contents.whole? else none := by
  rw [tally?, h, Option.bind_some]

theorem get?_of_tally? {name : String} {r : Registry} {b : Base} {n : Int}
    (h : r.tally? name = some (b, n)) :
    ∃ v, r.get? name = some v ∧ v.flags.writable = true ∧ v.contents.whole? = some (b, n) := by
  obtain ⟨v, hv, h⟩ := Option.bind_eq_some_iff.1 h
  split at h
  · next hwritable => exact ⟨v, hv, hwritable, h⟩
  · cases h

theorem tally?_put_of_ne {name n : String} (hn : n ≠ name) {w : Value} (hw : w.name = n)
    (r : Registry) : (r.put n w).tally? name = r.tally? name :=
  congrArg (Option.bind · _) (find?_replaceFirst_of_ne (Ne.symm hn) hw r.values)

theorem tally?_put {name : String} {v w : Value} {r : Registry} (hv : r.get? name = some v)
    (hw : w.name = name) :
    (r.put name w).tally? name = if w.flags.writable then w.contents.whole? else none :=
  tally?_of_get? (find?_replaceFirst hw hv)

theorem tally?_clearDirty (name : String) (r : Registry) :
    r.clearDirty.tally? name = r.tally? name := by
  unfold tally?
  rw [get?_clearDirty]
  cases r.get? name <;> rfl

end Registry

end Observatory
