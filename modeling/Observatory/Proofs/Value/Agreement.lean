import Observatory.Proofs.Number.Coarse
import Observatory.Proofs.Value.Exact
/-!
# Equal whole numbers

Whole numbers are held by cells of 32 or of 64 bits and by selections, and two values that hold them
are compared in three ways: as the same contents, as words of 64 bits, or as doubles. All three come
to one: the 53 leading bits have to be equal. Only two cells of 64 bits can hold different numbers
that have them in common.

* `Contents.agrees_iff_coarse` — what is compared, whatever the two values are.
* `Contents.whole_agreement` — when this is equality of the numbers; it always is an equivalence.
-/

namespace Observatory

open Number (coarse)

/-! ## Cells -/

namespace Scalar

variable {a s : Scalar} {b b' : Base} {i j : Int}

theorem asDouble?_of_whole? (h : s.whole? = some (b, i)) : s.asDouble? = some (Number.ofInt i) := by
  rcases whole?_cases h with ⟨v, rfl, rfl, rfl⟩ | ⟨v, rfl, rfl, rfl⟩ <;> rfl

theorem asInt?_of_whole? (h : s.whole? = some (b, i)) : ∃ w, s.asInt? = some w ∧ w.toInt = i := by
  rcases whole?_cases h with ⟨v, rfl, rfl, rfl⟩ | ⟨v, rfl, rfl, rfl⟩
  · exact ⟨v.toInt64, rfl, Int32.toInt_toInt64 v⟩
  · exact ⟨v, rfl, rfl⟩

/-- Cells with the same contents hold the same number. -/
theorem eq_of_same (ha : a.whole? = some (b, i)) (hs : s.whole? = some (b', j))
    (h : a.same s = true) : i = j := by
  rcases whole?_cases ha with ⟨v, rfl, rfl, rfl⟩ | ⟨v, rfl, rfl, rfl⟩ <;>
    rcases whole?_cases hs with ⟨w, rfl, rfl, rfl⟩ | ⟨w, rfl, rfl, rfl⟩
  · have hwords : v = w := by simpa [same] using h
    rw [hwords]
  · simp [same] at h
  · simp [same] at h
  · have hwords : v = w := by simpa [same] using h
    rw [hwords]

theorem natAbs_of_whole? (h : s.whole? = some (b, i)) : i.natAbs < 2 ^ 64 := by
  have hmin : Int64.minValue.toInt = -9223372036854775808 := rfl
  have hmax : Int64.maxValue.toInt = 9223372036854775807 := rfl
  have hlong : Base.long.Fits i := by
    have hfits := fits_of_whole? h
    rcases whole?_cases h with ⟨v, -, rfl, -⟩ | ⟨v, -, rfl, -⟩
    · exact Base.fits_long_of_integer hfits
    · exact hfits
  obtain ⟨hlow, hhigh⟩ := hlong
  omega

/-- Cells are compared as doubles, and cells with the same contents have the same double. -/
theorem agrees_iff_coarse (ha : a.whole? = some (b, i)) (hs : s.whole? = some (b', j)) :
    a.agrees s = true ↔ coarse i = coarse j := by
  have hdoubles := Number.ofInt_beq_iff (natAbs_of_whole? ha) (natAbs_of_whole? hs)
  unfold agrees
  rw [asDouble?_of_whole? ha, asDouble?_of_whole? hs]
  simp only [Bool.or_eq_true]
  rw [hdoubles]
  constructor
  · intro h
    rcases h with hsame | hcoarse
    · rw [eq_of_same ha hs hsame]
    · exact hcoarse
  · intro hcoarse
    exact .inr hcoarse

end Scalar

/-! ## Contents -/

namespace Contents

/-- What holds a whole number: a cell, or a selection. -/
theorem number?_cases {c : Contents} {i : Int} (h : c.number? = some i) :
    (∃ s b, c = scalar s ∧ s.whole? = some (b, i)) ∨ ∃ s, c = selection s ∧ i = s.index.toInt := by
  cases c with
  | scalar s =>
    obtain ⟨⟨b, k⟩, hs, rfl⟩ := Option.map_eq_some_iff.1 h
    exact .inl ⟨s, b, rfl, hs⟩
  | selection s =>
    cases h
    exact .inr ⟨s, rfl, rfl⟩
  | _ => cases h

/-- A word of 32 bits is narrower than a double. -/
theorem natAbs_index_lt (v : Int32) : v.toInt.natAbs < 2 ^ 53 := by
  have hhigh : v.toInt ≤ 2147483647 := Int32.toInt_le v
  have hlow : -2147483648 ≤ v.toInt := Int32.minValue_le_toInt v
  omega

/-- A selection and a cell are compared as words of 64 bits. -/
theorem asInt?_beq_iff {s : Scalar} {b : Base} {j : Int} (hs : s.whole? = some (b, j))
    (index : Int32) : (s.asInt? == some index.toInt64) = true ↔ index.toInt = j := by
  obtain ⟨w, hw, rfl⟩ := Scalar.asInt?_of_whole? hs
  rw [hw, beq_iff_eq, Option.some.injEq, ← Int32.toInt_toInt64 index, Int64.toInt_inj]
  exact eq_comm

variable {a b : Contents} {i j : Int}

/-- **Whole numbers are compared by their leading bits**, whatever holds them. -/
theorem agrees_iff_coarse (ha : a.number? = some i) (hb : b.number? = some j) :
    a.agrees b = true ↔ coarse i = coarse j := by
  rcases number?_cases ha with ⟨s, p, rfl, hs⟩ | ⟨s, rfl, rfl⟩ <;>
    rcases number?_cases hb with ⟨t, q, rfl, ht⟩ | ⟨t, rfl, rfl⟩
  · exact Scalar.agrees_iff_coarse hs ht
  · rw [@eq_comm _ (coarse i), Number.coarse_eq_iff (natAbs_index_lt t.index)]
    exact asInt?_beq_iff hs t.index
  · rw [Number.coarse_eq_iff (natAbs_index_lt s.index)]
    exact asInt?_beq_iff ht s.index
  · rw [Number.coarse_eq_iff (natAbs_index_lt s.index), Int32.toInt_inj]
    show (s.index == t.index) = true ↔ _
    exact beq_iff_eq

/-- What is no cell of 64 bits holds a narrow number. -/
theorem natAbs_of_kind (ha : a.number? = some i) (hkind : a.kind ≠ .scalar .long) :
    i.natAbs < 2 ^ 53 := by
  rcases number?_cases ha with ⟨s, b, rfl, hs⟩ | ⟨s, rfl, rfl⟩
  · rcases Scalar.whole?_cases hs with ⟨v, rfl, -, rfl⟩ | ⟨v, rfl, -, -⟩
    · exact natAbs_index_lt v
    · exact absurd rfl hkind
  · exact natAbs_index_lt s.index

/-- If one of the numbers is narrow, they are equal when the values are. -/
theorem agrees_iff_of_narrow (ha : a.number? = some i) (hb : b.number? = some j)
    (h : i.natAbs < 2 ^ 53 ∨ j.natAbs < 2 ^ 53) : a.agrees b = true ↔ i = j := by
  rw [agrees_iff_coarse ha hb]
  rcases h with hi | hj
  · exact Number.coarse_eq_iff hi
  · rw [eq_comm, Number.coarse_eq_iff hj]
    exact eq_comm

/-- **When values that hold whole numbers are equal.** Their 53 leading bits have to be equal. This
is equality of the numbers unless two cells of 64 bits hold different numbers with the same leading
bits; in particular it is if one of the numbers has no more than 53 bits. In any case it is an
equivalence. -/
theorem whole_agreement (ha : a.number? = some i) (hb : b.number? = some j) :
    (a.agrees b = true ↔ coarse i = coarse j) ∧
    ((a.agrees b = true ↔ i = j) ↔
      ¬ (a.kind = .scalar .long ∧ b.kind = .scalar .long ∧ i ≠ j ∧ coarse i = coarse j)) ∧
    (i.natAbs < 2 ^ 53 ∨ j.natAbs < 2 ^ 53 → (a.agrees b = true ↔ i = j)) ∧
    a.agrees a = true ∧
    (a.agrees b = true → b.agrees a = true) ∧
    ∀ c k, c.number? = some k → a.agrees b = true → b.agrees c = true → a.agrees c = true := by
  have hcoarse := agrees_iff_coarse ha hb
  refine ⟨hcoarse, ?_, agrees_iff_of_narrow ha hb, (agrees_iff_coarse ha ha).2 rfl, ?_, ?_⟩
  · constructor
    · rintro hexact ⟨-, -, hne, hbits⟩
      exact hne (hexact.1 (hcoarse.2 hbits))
    · intro hapart
      by_cases hlong : a.kind = .scalar .long ∧ b.kind = .scalar .long
      · rw [hcoarse]
        constructor
        · intro hbits
          by_contra hne
          exact hapart ⟨hlong.1, hlong.2, hne, hbits⟩
        · intro heq
          rw [heq]
      · rcases not_and_or.1 hlong with hkind | hkind
        · exact agrees_iff_of_narrow ha hb (.inl (natAbs_of_kind ha hkind))
        · exact agrees_iff_of_narrow ha hb (.inr (natAbs_of_kind hb hkind))
  · intro h
    rw [agrees_iff_coarse hb ha]
    exact (hcoarse.1 h).symm
  · intro c k hc h h'
    rw [agrees_iff_coarse ha hc]
    exact (hcoarse.1 h).trans ((agrees_iff_coarse hb hc).1 h')

/-- A number of 54 bits in a cell is not the index of a selection. -/
theorem whole_agreement_of_filter :
    let count := scalar (.long 9007199254740993)
    let filter := selection { index := 1, symbols := ["U", "B"] }
    count.number? = some 9007199254740993 ∧ filter.number? = some 1 ∧
      (count.agrees filter = true ↔ (9007199254740993 : Int) = 1) := by
  intro count filter
  have hcount : count.number? = some 9007199254740993 := by decide
  have hfilter : filter.number? = some 1 := by decide
  obtain ⟨-, -, hnarrow, -⟩ := whole_agreement hcount hfilter
  exact ⟨hcount, hfilter, hnarrow (.inr (by decide))⟩

/-- Two cells of 64 bits with different numbers can be equal: the odd number is rounded down to its
even neighbour. -/
theorem agrees_of_neighbours :
    let even := scalar (.long 9007199254740992)
    let odd := scalar (.long 9007199254740993)
    even.number? = some 9007199254740992 ∧ odd.number? = some 9007199254740993 ∧
      ¬ (even.agrees odd = true ↔ (9007199254740992 : Int) = 9007199254740993) := by
  intro even odd
  have heven : even.number? = some 9007199254740992 := by decide
  have hodd : odd.number? = some 9007199254740993 := by decide
  have hbits : coarse 9007199254740992 = coarse 9007199254740993 := by decide +kernel
  refine ⟨heven, hodd, ?_⟩
  intro hexact
  exact absurd (hexact.1 ((agrees_iff_coarse heven hodd).2 hbits)) (by decide)

end Contents

end Observatory
