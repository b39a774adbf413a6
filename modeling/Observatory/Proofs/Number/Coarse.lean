import Observatory.Proofs.Number.Nearest
/-!
# Whole numbers as exact as a double

A double keeps the 53 leading bits of a whole number, rounded, with a half going to the even
neighbour. A number of fewer bits is kept as it is; one of more bits shares its double with its
neighbours.

* `coarse` — the whole number that the double of a whole number stands for.
* `ofInt_beq_iff` — two doubles are equal exactly when these numbers are.
* `coarse_eq_iff` — a number of fewer than 54 bits shares its double with no other one.
-/

namespace Observatory.Number

open Float.Model (UnpackedFloat totalExponent)
open Float.Model.UnpackedFloat (ExtendedMantissa)

/-- The 53 leading bits of a natural number, rounded, and zeros behind them. -/
def coarseNat (n : Nat) : Nat :=
  if n < 2 ^ 53 then n else roundDiv n (2 ^ (n.log2 - 52)) * 2 ^ (n.log2 - 52)

/-- The whole number that the double of a whole number stands for. -/
def coarse (i : Int) : Int := i.sign * coarseNat i.natAbs

/-! ## Rounding by shifting -/

/-- Bits that are shifted out are remembered: the last one by itself, and of the others whether
there was any. -/
theorem shiftRight_succ (n k : Nat) : (ExtendedMantissa.mk n false false) >>> (k + 1) =
    ExtendedMantissa.mk (n / 2 ^ (k + 1)) (n / 2 ^ k % 2 != 0) (n % 2 ^ k != 0) := by
  induction k with
  | zero => simp [HShiftRight.hShiftRight, Nat.repeat, ExtendedMantissa.shiftRightOne, Nat.mod_one]
  | succ k ih =>
    have hstep : (ExtendedMantissa.mk n false false) >>> (k + 1 + 1) =
        ((ExtendedMantissa.mk n false false) >>> (k + 1)).shiftRightOne := rfl
    have hquotient : n / 2 ^ (k + 1) / 2 = n / 2 ^ (k + 1 + 1) := by
      rw [Nat.div_div_eq_div_mul, ← Nat.pow_succ]
    have hrest := @Nat.mod_pow_succ n 2 k
    have hpow := Nat.two_pow_pos k
    have hsticky : (n / 2 ^ k % 2 != 0 || n % 2 ^ k != 0) = (n % 2 ^ (k + 1) != 0) := by
      rw [hrest]
      rcases Nat.mod_two_eq_zero_or_one (n / 2 ^ k) with hbit | hbit <;> rw [hbit]
      · simp
      · simp
    rw [hstep, ih, ExtendedMantissa.shiftRightOne, hquotient, hsticky]

/-- What is remembered is what rounding to the even neighbour asks for. -/
theorem roundedMantissa_shiftRight (n k : Nat) :
    ((ExtendedMantissa.mk n false false) >>> (k + 1)).roundedMantissa =
      roundDiv n (2 ^ (k + 1)) := by
  have hpow := Nat.two_pow_pos k
  have hrest := @Nat.mod_pow_succ n 2 k
  have hlt := Nat.mod_lt n hpow
  have hdouble : 2 ^ (k + 1) = 2 * 2 ^ k := Nat.pow_succ'
  rw [shiftRight_succ]
  simp only [roundDiv]
  rw [hrest]
  generalize n / 2 ^ (k + 1) = q
  rcases Nat.mod_two_eq_zero_or_one (n / 2 ^ k) with hbit | hbit <;> rw [hbit]
  · -- less than a half is left over
    rw [if_pos (by omega)]
    by_cases hzero : n % 2 ^ k = 0
    · rw [hzero]
      rfl
    · have hne : (n % 2 ^ k != 0) = true := by simpa using hzero
      rw [hne]
      rfl
  · rw [if_neg (by omega)]
    by_cases hzero : n % 2 ^ k = 0
    · rw [hzero, if_neg (by omega)]
      rfl
    · have hne : (n % 2 ^ k != 0) = true := by simpa using hzero
      rw [hne, if_pos (by omega)]
      rfl

theorem roundDiv_bounds (num den : Nat) :
    num / den ≤ roundDiv num den ∧ roundDiv num den ≤ num / den + 1 := by
  simp only [roundDiv]
  split
  · omega
  · split <;> omega

/-- A quotient that has its 53 bits is rounded to one, or to the power of two behind them all. -/
theorem rounded_bounds {n k : Nat} (hlog : n.log2 = 52 + k) :
    2 ^ 52 ≤ roundDiv n (2 ^ k) ∧ roundDiv n (2 ^ k) ≤ 2 ^ 53 := by
  have hne : n ≠ 0 := by
    rintro rfl
    simp at hlog
    omega
  obtain ⟨hlow, hhigh⟩ := (Nat.log2_eq_iff hne).1 hlog
  obtain ⟨hbelow, habove⟩ := roundDiv_bounds n (2 ^ k)
  rw [Nat.pow_add] at hlow
  rw [show 52 + k + 1 = 53 + k by omega, Nat.pow_add] at hhigh
  have hquotient : 2 ^ 52 ≤ n / 2 ^ k := (Nat.le_div_iff_mul_le (Nat.two_pow_pos k)).2 hlow
  have hquotient' : n / 2 ^ k < 2 ^ 53 := (Nat.div_lt_iff_lt_mul (Nat.two_pow_pos k)).2 hhigh
  omega

theorem targetExponent_eq (m : Nat) (q : Int) :
    Float.Model.Format.targetExponent .binary64 (totalExponent m q) =
      max ((m.log2 : Int) - 52 + q) (-1074) := by
  have hbits : Float.Model.Format.binary64.mantissaBits = 53 := rfl
  simp only [Float.Model.Format.targetExponent, totalExponent, hbits,
    Float.Model.Format.minExponent]
  omega

/-- A number is shifted by the bits that it has too many. -/
theorem shiftToTargetExponent_eq {m k : Nat} {q : Int} (hlog : m.log2 = 52 + k) (hq : -1074 ≤ q) :
    UnpackedFloat.shiftToTargetExponent .binary64 m q .exact =
      (ExtendedMantissa.mk m false false >>> k, q + k) := by
  have htarget : max ((m.log2 : Int) - 52 + q) (-1074) = q + k := by omega
  have hshift : (q + k - q).toNat = k := by omega
  simp only [UnpackedFloat.shiftToTargetExponent, UnpackedFloat.shiftToExponent, targetExponent_eq,
    htarget, hshift]
  rfl

/-! ## Wide numbers as doubles -/

/-- The parts of a finite double of 53 bits whose size is a whole number. -/
structure Stands (n m : Nat) (q : Int) : Prop where
  low : 2 ^ 52 ≤ m
  high : m < 2 ^ 53
  least : -52 ≤ q
  greatest : q ≤ 971
  /-- The exponent may be negative, down to the one of the number one. -/
  size : m * 2 ^ (q + 52).toNat = n * 2 ^ 52

open Float.Model in
open Float.Model.UnpackedFloat in
/-- A whole number of more than 53 bits is rounded to its leading ones. -/
theorem round_of_wide (s : Sign) {n : Nat} (hwide : 2 ^ 53 ≤ n) (hn : n < 2 ^ 64) :
    ∃ m q, ∃ hm : 0 < m, UnpackedFloat.round .binary64 s n 0 = .finite s m q hm ∧
      Stands (coarseNat n) m q := by
  obtain ⟨k, hlog⟩ : ∃ k, n.log2 = 52 + (k + 1) := by
    have hlow : 53 ≤ n.log2 := (Nat.le_log2 (by omega)).2 hwide
    exact ⟨n.log2 - 53, by omega⟩
  have hk : k + 1 ≤ 11 := by
    have hhigh : n.log2 < 64 := (Nat.log2_lt (by omega)).2 hn
    omega
  have htarget : max ((n.log2 : Int) - 52 + 0) (-1074) = ((k + 1 : Nat) : Int) := by omega
  have hcoarse : coarseNat n = roundDiv n (2 ^ (k + 1)) * 2 ^ (k + 1) := by
    rw [coarseNat, if_neg (by omega), hlog, Nat.add_sub_cancel_left]
  have hfirst := shiftToTargetExponent_eq hlog (show (-1074 : Int) ≤ 0 by decide)
  have hkeep : (0 - ((k + 1 : Nat) : Int)).toNat = 0 := by omega
  have hround : UnpackedFloat.round .binary64 s n 0 = roundWithAccuracy .binary64 s n 0 .exact := by
    simp only [UnpackedFloat.round, decreaseExponent, targetExponent_eq, htarget, hkeep,
      Nat.shiftLeft_zero, Int.natCast_zero, Int.sub_zero]
  obtain ⟨hlow, hhigh⟩ := rounded_bounds hlog
  have hsize (m e : Nat) (h : m * 2 ^ e = coarseNat n) :
      m * 2 ^ (((e : Nat) : Int) + 52).toNat = coarseNat n * 2 ^ 52 := by
    rw [show ((e : Int) + 52).toNat = e + 52 by omega, Nat.pow_add, ← Nat.mul_assoc, h]
  rcases Nat.lt_or_eq_of_le hhigh with hlt | heq
  · refine ⟨roundDiv n (2 ^ (k + 1)), ((k + 1 : Nat) : Int), by omega, ?_, hlow, hlt, by omega,
      by omega, hsize _ _ hcoarse.symm⟩
    rw [hround]
    unfold roundWithAccuracy
    rw [hfirst]
    dsimp only
    have hlog' : (roundDiv n (2 ^ (k + 1))).log2 = 52 + 0 :=
      (Nat.log2_eq_iff (by omega)).2 ⟨hlow, hlt⟩
    rw [roundedMantissa_shiftRight, Int.zero_add, shiftToTargetExponent_eq hlog' (by omega)]
    exact dif_neg (show roundDiv n (2 ^ (k + 1)) ≠ 0 by omega)
  · -- rounding up went over the end, so that there is one more bit in front
    have hpower : 2 ^ 52 * 2 ^ (k + 1 + 1) = coarseNat n := by
      rw [hcoarse, heq, Nat.pow_succ 2 (k + 1), Nat.pow_succ 2 52, Nat.mul_comm (2 ^ (k + 1)) 2,
        Nat.mul_assoc]
    refine ⟨2 ^ 52, ((k + 1 + 1 : Nat) : Int), by omega, ?_, Nat.le_refl _, by decide, by omega,
      by omega, hsize _ _ hpower⟩
    rw [hround]
    unfold roundWithAccuracy
    rw [hfirst]
    dsimp only
    have hlog' : (2 ^ 53).log2 = 52 + 1 := Nat.log2_two_pow
    rw [roundedMantissa_shiftRight, heq, Int.zero_add, shiftToTargetExponent_eq hlog' (by omega)]
    rfl

theorem coarseNat_of_narrow {n : Nat} (h : n < 2 ^ 53) : coarseNat n = n := if_pos h

/-- **The double of a whole number** stands for its leading bits. -/
theorem stands_ofInt {i : Int} (hne : i ≠ 0) (hi : i.natAbs < 2 ^ 64) :
    ∃ m q, ∃ hm : 0 < m,
      (ofInt i).toModel.unpack = .finite (if i < 0 then .negative else .positive) m q hm ∧
        Stands (coarseNat i.natAbs) m q := by
  have hpos : 0 < i.natAbs := Int.natAbs_pos.2 hne
  by_cases hnarrow : i.natAbs < 2 ^ 53
  · obtain ⟨hlow, hhigh⟩ := shifted_bounds hpos hnarrow
    have hlog : i.natAbs.log2 < 53 := (Nat.log2_lt (by omega)).2 hnarrow
    refine ⟨_, _, _, unpack_ofInt rfl hpos hnarrow, hlow, hhigh, by omega, by omega, ?_⟩
    rw [coarseNat_of_narrow hnarrow, Nat.mul_assoc, ← Nat.pow_add]
    congr 2
    omega
  · obtain ⟨m, q, hm, hround, hstands⟩ := round_of_wide
      (if i < 0 then .negative else .positive) (Nat.not_lt.1 hnarrow) hi
    refine ⟨m, q, hm, ?_, hstands⟩
    show UnpackedFloat.unpack .binary64 (UnpackedFloat.pack .binary64
      (UnpackedFloat.ofInt .binary64 i)) = _
    rw [ofInt_eq_round hne, hround]
    exact unpack_pack_of_normal _ _ hstands.low hstands.high
      (Int.le_trans (by decide) hstands.least) hstands.greatest

/-- A number that stands for a size has one significand and one exponent. -/
theorem Stands.unique {n m m' : Nat} {q q' : Int} (h : Stands n m q) (h' : Stands n m' q') :
    m = m' ∧ q = q' := by
  have hle {m m' : Nat} {q q' : Int} (h : Stands n m q) (h' : Stands n m' q') : q ≤ q' := by
    have hsize : m * 2 ^ (q + 52).toNat = m' * 2 ^ (q' + 52).toNat := h.size.trans h'.size.symm
    have hlow := Nat.mul_le_mul_right (2 ^ (q + 52).toNat) h.low
    have hhigh := Nat.mul_lt_mul_of_pos_right h'.high (Nat.two_pow_pos (q' + 52).toNat)
    rw [← Nat.pow_add] at hlow hhigh
    have hpower : 2 ^ (52 + (q + 52).toNat) < 2 ^ (53 + (q' + 52).toNat) := by omega
    have hexponent := (Nat.pow_lt_pow_iff_right (by decide)).1 hpower
    have hleast := h.least
    have hleast' := h'.least
    omega
  obtain rfl : q = q' := Int.le_antisymm (hle h h') (hle h' h)
  exact ⟨Nat.eq_of_mul_eq_mul_right (Nat.two_pow_pos _) (h.size.trans h'.size.symm), rfl⟩

/-! ## Equal doubles -/

theorem beq_iff (x y : Float) :
    (x == y) = true ↔ x.toModel.unpack.compare y.toModel.unpack = some .eq := by
  show (x.toModel.unpack.compare y.toModel.unpack == some .eq) = true ↔ _
  exact beq_iff_eq

/-- A wide number stays wide. -/
theorem coarseNat_of_wide {n : Nat} (h : 2 ^ 53 ≤ n) : 2 ^ 53 ≤ coarseNat n := by
  obtain ⟨k, hlog⟩ : ∃ k, n.log2 = 52 + (k + 1) := by
    have hlow : 53 ≤ n.log2 := (Nat.le_log2 (by omega)).2 h
    exact ⟨n.log2 - 53, by omega⟩
  have hrounded := Nat.mul_le_mul_right (2 ^ (k + 1)) (rounded_bounds hlog).1
  have hpower : 2 ^ 53 ≤ 2 ^ 52 * 2 ^ (k + 1) := by
    rw [← Nat.pow_add]
    exact Nat.pow_le_pow_right (by decide) (by omega)
  rw [coarseNat, if_neg (by omega), hlog, Nat.add_sub_cancel_left]
  omega

theorem coarseNat_pos {n : Nat} (h : 0 < n) : 0 < coarseNat n := by
  by_cases hnarrow : n < 2 ^ 53
  · rwa [coarseNat_of_narrow hnarrow]
  · have hwide := coarseNat_of_wide (Nat.not_lt.1 hnarrow)
    omega

theorem coarse_of_nonneg {i : Int} (h : 0 ≤ i) : coarse i = coarseNat i.natAbs := by
  rcases Int.lt_or_eq_of_le h with hpos | rfl
  · rw [coarse, Int.sign_eq_one_of_pos hpos, Int.one_mul]
  · rfl

theorem coarse_of_neg {i : Int} (h : i < 0) : coarse i = -(coarseNat i.natAbs : Int) := by
  rw [coarse, Int.sign_eq_neg_one_of_neg h, Int.neg_mul, Int.one_mul]

/-- Two numbers have the same leading bits if they have the same sign and their sizes have. -/
theorem coarse_eq_coarse_iff {i j : Int} :
    coarse i = coarse j ↔ (i < 0 ↔ j < 0) ∧ coarseNat i.natAbs = coarseNat j.natAbs := by
  have hpos (h : i ≠ 0) := coarseNat_pos (Int.natAbs_pos.2 h)
  have hpos' (h : j ≠ 0) := coarseNat_pos (Int.natAbs_pos.2 h)
  by_cases hi : i < 0
  · rw [coarse_of_neg hi]
    by_cases hj : j < 0
    · rw [coarse_of_neg hj]
      omega
    · rw [coarse_of_nonneg (Int.not_lt.1 hj)]
      omega
  · rw [coarse_of_nonneg (Int.not_lt.1 hi)]
    by_cases hj : j < 0
    · rw [coarse_of_neg hj]
      omega
    · rw [coarse_of_nonneg (Int.not_lt.1 hj)]
      omega

theorem coarse_eq_zero_iff {i : Int} : coarse i = 0 ↔ i = 0 := by
  constructor
  · intro h
    by_contra hne
    have hpos := coarseNat_pos (Int.natAbs_pos.2 hne)
    have hzero : coarseNat i.natAbs = coarseNat (0 : Int).natAbs :=
      (coarse_eq_coarse_iff.1 (h.trans (show (0 : Int) = coarse 0 from rfl))).2
    have hnone : coarseNat (0 : Int).natAbs = 0 := rfl
    omega
  · rintro rfl
    rfl

/-! ## Doubles that are compared -/

section

variable {m m' : Nat} {q q' : Int}

/-- No number but zero is equal to zero. -/
theorem compare_zero_ne (hm : 0 < m) (s s' : UnpackedFloat.Sign) :
    (UnpackedFloat.zero s).compare (.finite s' m q hm) ≠ some .eq ∧
      (UnpackedFloat.finite s' m q hm).compare (.zero s) ≠ some .eq := by
  cases s' with
  | positive => simp [UnpackedFloat.compare]
  | negative => simp [UnpackedFloat.compare]

/-- Numbers that are not zero are equal if their signs, exponents and significands are. -/
theorem compare_finite_eq_iff (hm : 0 < m) (hm' : 0 < m') (s s' : UnpackedFloat.Sign) :
    (UnpackedFloat.finite s m q hm).compare (.finite s' m' q' hm') = some .eq ↔
      s = s' ∧ q = q' ∧ m = m' := by
  cases s with
  | positive =>
    cases s' with
    | positive => simp [UnpackedFloat.compare, Ordering.then_eq_eq]
    | negative => simp [UnpackedFloat.compare]
  | negative =>
    cases s' with
    | positive => simp [UnpackedFloat.compare]
    | negative => simp [UnpackedFloat.compare, Ordering.then_eq_eq]

end

/-- Two whole numbers have equal doubles exactly when their leading bits are equal. -/
theorem ofInt_beq_iff {i j : Int} (hi : i.natAbs < 2 ^ 64) (hj : j.natAbs < 2 ^ 64) :
    (ofInt i == ofInt j) = true ↔ coarse i = coarse j := by
  have hzero : (ofInt 0).toModel.unpack = .zero .positive := by rfl
  rw [beq_iff]
  by_cases hi0 : i = 0
  · subst hi0
    by_cases hj0 : j = 0
    · subst hj0
      exact iff_of_true (by rw [hzero]; rfl) rfl
    · obtain ⟨m, q, hm, hunpack, -⟩ := stands_ofInt hj0 hj
      rw [hzero, hunpack]
      exact iff_of_false (compare_zero_ne hm _ _).1 fun h => hj0 (coarse_eq_zero_iff.1 h.symm)
  · obtain ⟨m, q, hm, hunpack, hstands⟩ := stands_ofInt hi0 hi
    by_cases hj0 : j = 0
    · subst hj0
      rw [hzero, hunpack]
      exact iff_of_false (compare_zero_ne hm _ _).2 fun h => hi0 (coarse_eq_zero_iff.1 h)
    · obtain ⟨m', q', hm', hunpack', hstands'⟩ := stands_ofInt hj0 hj
      have hparts : (q = q' ∧ m = m') ↔ coarseNat i.natAbs = coarseNat j.natAbs := by
        constructor
        · rintro ⟨rfl, rfl⟩
          exact Nat.eq_of_mul_eq_mul_right (by decide) (hstands.size.symm.trans hstands'.size)
        · intro h
          rw [h] at hstands
          exact (hstands.unique hstands').symm
      have hsigns : (if i < 0 then UnpackedFloat.Sign.negative else .positive) =
          (if j < 0 then .negative else .positive) ↔ (i < 0 ↔ j < 0) := by
        by_cases hneg : i < 0 <;> by_cases hneg' : j < 0 <;> simp [hneg, hneg']
      rw [hunpack, hunpack', compare_finite_eq_iff, hsigns, hparts, coarse_eq_coarse_iff]

/-- **A narrow number** has its double to itself, whatever the size of the other one. -/
theorem coarse_eq_iff {i j : Int} (h : i.natAbs < 2 ^ 53) : coarse i = coarse j ↔ i = j := by
  refine ⟨fun heq => ?_, congrArg coarse⟩
  obtain ⟨hsign, hsize⟩ := coarse_eq_coarse_iff.1 heq
  rw [coarseNat_of_narrow h] at hsize
  by_cases hnarrow : j.natAbs < 2 ^ 53
  · rw [coarseNat_of_narrow hnarrow] at hsize
    omega
  · have hwide := coarseNat_of_wide (Nat.not_lt.1 hnarrow)
    omega

end Observatory.Number
