import Mathlib
import Observatory.Number.Rounded
/-!
# Whole numbers next to doubles

How the order of doubles and the rounding to whole numbers fit together, as far as whole numbers
of fewer than 53 bits are concerned: a double between two of them is rounded to a number between
them, and a whole number survives the way to a double and back.

* `parts_eq` — the parts of a double are those of the number that it is computed with.
-/

namespace Observatory.Number

open Float.Model (UnpackedFloat)

/-! ## The parts of a double -/

/-- The parts of the number that a double is computed with. -/
def partsOf : UnpackedFloat → Parts
  | .notANumber => .nan
  | .infinity s => .infinite (s == .negative)
  | .zero s => .finite (s == .negative) 0 (-1074)
  | .finite s m q _ => .finite (s == .negative) m q

theorem toNat_unpackMantissa (b : BitVec 64) :
    (@UnpackedFloat.unpackMantissa .binary64 b).toNat = b.toNat % 2 ^ 52 := by
  show (b.extractLsb 51 0).toNat = _
  rw [BitVec.extractLsb_toNat, Nat.shiftRight_zero]

theorem toNat_unpackExponent (b : BitVec 64) :
    (@UnpackedFloat.unpackExponent .binary64 b).toNat = b.toNat / 2 ^ 52 % 2 ^ 11 := by
  show (b.extractLsb 62 52).toNat = _
  rw [BitVec.extractLsb_toNat, Nat.shiftRight_eq_div_pow]

theorem toNat_unpackSign (b : BitVec 64) :
    (@UnpackedFloat.unpackSign .binary64 b).toNat = b.toNat / 2 ^ 63 := by
  show (b.extractLsb 63 63).toNat = _
  rw [BitVec.extractLsb_toNat, Nat.shiftRight_eq_div_pow]
  omega

/-- The sign bit. -/
theorem sign_eq (b : BitVec 64) :
    (UnpackedFloat.Sign.ofBitVec (@UnpackedFloat.unpackSign .binary64 b) ==
      UnpackedFloat.Sign.negative) = decide (2 ^ 63 ≤ b.toNat) := by
  have hsign := toNat_unpackSign b
  have hlt := b.isLt
  unfold UnpackedFloat.Sign.ofBitVec
  by_cases hzero : @UnpackedFloat.unpackSign .binary64 b = 0#1
  · rw [if_pos hzero]
    rw [hzero] at hsign
    have hlow : ¬ 2 ^ 63 ≤ b.toNat := by
      simp at hsign
      omega
    rw [decide_eq_false hlow]
    rfl
  · rw [if_neg hzero]
    have hne : (@UnpackedFloat.unpackSign .binary64 b).toNat ≠ 0 := by
      intro h
      exact hzero (BitVec.toNat_inj.1 (by simpa using h))
    have hhigh : 2 ^ 63 ≤ b.toNat := by omega
    rw [decide_eq_true hhigh]
    rfl

theorem toNat_one_append (b : BitVec 52) : (1#1 ++ b).toNat = b.toNat + 2 ^ 52 := by
  rw [BitVec.toNat_append, ← Nat.shiftLeft_add_eq_or_of_lt b.isLt]
  simp [Nat.shiftLeft_eq]
  omega

/-- **The parts of a double** are those of the number that it is computed with. -/
theorem parts_eq (x : Float) : parts x = partsOf x.toModel.unpack := by
  obtain ⟨⟨bits, hvalid⟩⟩ := x
  show partsOfBits bits.toBitVec.toNat = partsOf (UnpackedFloat.unpack .binary64 bits.toBitVec)
  generalize bits.toBitVec = b
  have hmantissa := toNat_unpackMantissa b
  have hexponent := toNat_unpackExponent b
  have hsign := sign_eq b
  have hlt := b.isLt
  have hbias : ((Float.Model.Format.binary64.exponentBias : Nat) : Int) = 1023 := rfl
  have hfield : b.toNat % 2 ^ 63 / 2 ^ 52 =
      (@UnpackedFloat.unpackExponent .binary64 b).toNat := by omega
  have hfraction : b.toNat % 2 ^ 63 % 2 ^ 52 =
      (@UnpackedFloat.unpackMantissa .binary64 b).toNat := by omega
  have hfull : @UnpackedFloat.unpackExponent .binary64 b = -1#11 ↔
      (@UnpackedFloat.unpackExponent .binary64 b).toNat = 2047 := BitVec.toNat_inj.symm
  have hempty : @UnpackedFloat.unpackExponent .binary64 b = 0#11 ↔
      (@UnpackedFloat.unpackExponent .binary64 b).toNat = 0 := BitVec.toNat_inj.symm
  have hnone : @UnpackedFloat.unpackMantissa .binary64 b = 0#52 ↔
      (@UnpackedFloat.unpackMantissa .binary64 b).toNat = 0 := BitVec.toNat_inj.symm
  have hone := toNat_one_append (@UnpackedFloat.unpackMantissa .binary64 b)
  unfold partsOfBits UnpackedFloat.unpack
  simp only [Nat.pow_eq]
  rw [hfield, hfraction, ← hsign]
  by_cases hinfinite : (@UnpackedFloat.unpackExponent .binary64 b).toNat = 2047
  · rw [if_pos hinfinite, if_pos (hfull.2 hinfinite)]
    by_cases hzero : (@UnpackedFloat.unpackMantissa .binary64 b).toNat = 0
    · rw [if_pos hzero, if_pos (hnone.2 hzero)]
      rfl
    · rw [if_neg hzero, if_neg fun h => hzero (hnone.1 h)]
      rfl
  · rw [if_neg hinfinite, if_neg fun h => hinfinite (hfull.1 h)]
    by_cases hsmall : (@UnpackedFloat.unpackExponent .binary64 b).toNat = 0
    · rw [if_pos hsmall, if_pos (hempty.2 hsmall)]
      by_cases hzero : (@UnpackedFloat.unpackMantissa .binary64 b).toNat = 0
      · rw [dif_pos (hnone.2 hzero), hzero]
        rfl
      · rw [dif_neg fun h => hzero (hnone.1 h)]
        simp only [partsOf, Parts.finite.injEq, true_and]
        omega
    · rw [if_neg hsmall, if_neg fun h => hsmall (hempty.1 h)]
      simp only [partsOf, Parts.finite.injEq, true_and]
      omega

/-- No significand has more than 53 bits. -/
theorem significand_lt {x : Float} {s : UnpackedFloat.Sign} {m : Nat} {q : Int} {hm : 0 < m}
    (h : x.toModel.unpack = .finite s m q hm) : m < 2 ^ 53 := by
  have hparts := parts_eq x
  rw [h] at hparts
  unfold parts partsOfBits partsOf at hparts
  simp only [Nat.pow_eq] at hparts
  split at hparts
  · split at hparts <;> cases hparts
  · split at hparts
    · injection hparts
      omega
    · injection hparts
      omega

/-! ## Whole numbers as doubles -/

open Float.Model in
open Float.Model.UnpackedFloat in
/-- A number that has its 53 bits is not rounded. -/
theorem round_of_normal (s : Sign) {m : Nat} {q : Int} (hlow : 2 ^ 52 ≤ m) (hhigh : m < 2 ^ 53)
    (hq : -1074 ≤ q) :
    roundWithAccuracy .binary64 s m q .exact = .finite s m q (Nat.zero_lt_of_lt hlow) := by
  have hlog : m.log2 = 52 := (Nat.log2_eq_iff (by omega)).2 ⟨hlow, hhigh⟩
  have htarget : Float.Model.Format.targetExponent .binary64 (totalExponent m q) = q := by
    have hbits : Float.Model.Format.binary64.mantissaBits = 53 := rfl
    simp only [Float.Model.Format.targetExponent, totalExponent, hlog, hbits,
      Float.Model.Format.minExponent]
    omega
  have hshift (em : ExtendedMantissa) : em >>> (0 : Nat) = em := rfl
  simp [roundWithAccuracy, shiftToTargetExponent, htarget, shiftToExponent, hshift,
    ExtendedMantissa.ofMantissaAndAccuracy, ExtendedMantissa.roundedMantissa,
    ExtendedMantissa.accuracy, Accuracy.roundToNearestEven, show m ≠ 0 by omega]

/-- A whole number of at most 53 bits, shifted until it has all of them. -/
theorem shifted_bounds {n : Nat} (hpos : 0 < n) (hn : n < 2 ^ 53) :
    2 ^ 52 ≤ n * 2 ^ (52 - n.log2) ∧ n * 2 ^ (52 - n.log2) < 2 ^ 53 := by
  obtain ⟨hlow, hhigh⟩ := (Nat.log2_eq_iff (by omega)).1 (rfl : n.log2 = n.log2)
  have hlog : n.log2 < 53 := (Nat.log2_lt (by omega)).2 hn
  have hlow' := Nat.mul_le_mul_right (2 ^ (52 - n.log2)) hlow
  have hhigh' := Nat.mul_lt_mul_of_pos_right hhigh (Nat.two_pow_pos (52 - n.log2))
  rw [← Nat.pow_add] at hlow' hhigh'
  rw [show n.log2 + (52 - n.log2) = 52 by omega] at hlow'
  rw [show n.log2 + 1 + (52 - n.log2) = 53 by omega] at hhigh'
  exact ⟨hlow', hhigh'⟩

open Float.Model in
open Float.Model.UnpackedFloat in
/-- A whole number of at most 53 bits is not rounded. -/
theorem round_of_whole (s : Sign) {n : Nat} (hpos : 0 < n) (hn : n < 2 ^ 53) :
    UnpackedFloat.round .binary64 s n 0 =
      .finite s (n * 2 ^ (52 - n.log2)) ((n.log2 : Int) - 52)
        (Nat.zero_lt_of_lt (shifted_bounds hpos hn).1) := by
  obtain ⟨hlow, hhigh⟩ := shifted_bounds hpos hn
  have hlog : n.log2 < 53 := (Nat.log2_lt (by omega)).2 hn
  have htarget : Float.Model.Format.targetExponent .binary64 (totalExponent n 0) =
      (n.log2 : Int) - 52 := by
    have hbits : Float.Model.Format.binary64.mantissaBits = 53 := rfl
    simp only [Float.Model.Format.targetExponent, totalExponent, hbits,
      Float.Model.Format.minExponent]
    omega
  have hshift : (0 - ((n.log2 : Int) - 52)).toNat = 52 - n.log2 := by omega
  have hrest : (0 : Int) - ((52 - n.log2 : Nat) : Int) = (n.log2 : Int) - 52 := by omega
  simp only [UnpackedFloat.round, htarget, decreaseExponent, hshift, hrest, Nat.shiftLeft_eq]
  exact round_of_normal s hlow hhigh (by omega)

open Float.Model.UnpackedFloat in
/-- A number that has its 53 bits is unpacked as it was packed. -/
theorem unpack_pack_of_normal (s : Sign) {m : Nat} {q : Int} (hm : 0 < m) (hlow : 2 ^ 52 ≤ m)
    (hhigh : m < 2 ^ 53) (hq : -1074 ≤ q) (hq' : q ≤ 971) :
    unpack .binary64 (pack .binary64 (.finite s m q hm)) = .finite s m q hm := by
  have hlog : m.log2 = 52 := (Nat.log2_eq_iff (by omega)).2 ⟨hlow, hhigh⟩
  have hbias : ((Float.Model.Format.binary64.exponentBias : Nat) : Int) = 1023 := rfl
  have hbits : Float.Model.Format.binary64.mantissaBits = 53 := rfl
  have hpack : pack .binary64 (.finite s m q hm) =
      packComponents .binary64 s (BitVec.ofNat 11 (q + 1075).toNat) (BitVec.ofNat 52 m) := by
    unfold pack
    simp only [hlog, hbits, hbias]
    rw [if_neg (by omega), if_pos trivial]
    congr 2
    omega
  have hfield : (BitVec.ofNat 11 (q + 1075).toNat).toNat = (q + 1075).toNat :=
    Nat.mod_eq_of_lt (by omega)
  have hfraction : (1#1 ++ BitVec.ofNat 52 m).toNat = m := by
    rw [toNat_one_append, BitVec.toNat_ofNat]
    omega
  rw [hpack]
  unfold unpack
  simp only [unpackMantissa_packComponents, unpackExponent_packComponents,
    unpackSign_packComponents, Sign.ofBitVec_toBitVec]
  rw [if_neg, if_neg]
  · congr 1
    omega
  · intro h
    rw [h] at hfield
    simp at hfield
    omega
  · intro h
    rw [h] at hfield
    simp at hfield
    omega

/-- A whole number is rounded by its size, and its sign is kept. -/
theorem ofInt_eq_round {i : Int} (h : i ≠ 0) : UnpackedFloat.ofInt .binary64 i =
    UnpackedFloat.round .binary64 (if i < 0 then .negative else .positive) i.natAbs 0 := by
  unfold UnpackedFloat.ofInt UnpackedFloat.normalize
  rcases Int.lt_or_gt_of_ne h with hneg | hpositive
  · have hcompare : compare i 0 = .lt := Int.compare_eq_lt.2 hneg
    have hopposite : (-i).toNat = i.natAbs := by omega
    simp only [hcompare, hopposite, if_pos hneg]
  · have hcompare : compare i 0 = .gt := Int.compare_eq_gt.2 hpositive
    have hsame : i.toNat = i.natAbs := by omega
    simp only [hcompare, hsame, if_neg (Int.lt_asymm hpositive)]

/-- The double of a whole number of at most 53 bits is that number. -/
theorem unpack_ofInt {i : Int} {n : Nat} (hsize : i.natAbs = n) (hpos : 0 < n) (hn : n < 2 ^ 53) :
    (ofInt i).toModel.unpack = .finite (if i < 0 then .negative else .positive)
      (n * 2 ^ (52 - n.log2)) ((n.log2 : Int) - 52)
      (Nat.zero_lt_of_lt (shifted_bounds hpos hn).1) := by
  obtain ⟨hlow, hhigh⟩ := shifted_bounds hpos hn
  have hlog : n.log2 < 53 := (Nat.log2_lt (by omega)).2 hn
  show UnpackedFloat.unpack .binary64 (UnpackedFloat.pack .binary64
    (UnpackedFloat.ofInt .binary64 i)) = _
  rw [ofInt_eq_round (by omega), hsize, round_of_whole _ hpos hn]
  exact unpack_pack_of_normal _ _ hlow hhigh (by omega) (by omega)

/-! ## Rounding to whole numbers -/

theorem roundHalfUp_mul (n : Nat) {den : Nat} (hden : 0 < den) :
    roundHalfUp (n * den) den = n := by
  have hlow : n * (2 * den) = 2 * (n * den) := Nat.mul_left_comm n 2 den
  have hhigh : (n + 1) * (2 * den) = 2 * (n * den) + 2 * den := by
    rw [Nat.succ_mul, hlow]
  exact Nat.div_eq_of_lt_le (by omega) (by omega)

theorem roundHalfUp_le {num den n : Nat} (hden : 0 < den) (h : num ≤ n * den) :
    roundHalfUp num den ≤ n := by
  rw [← roundHalfUp_mul n hden]
  unfold roundHalfUp
  exact Nat.div_le_div_right (by omega)

/-- The whole number next to a finite double, when it fits a word. -/
theorem toInt_nearestInt32 {x : Float} {s : UnpackedFloat.Sign} {m : Nat} {q : Int} {hm : 0 < m}
    (h : x.toModel.unpack = .finite s m q hm) {size : Nat}
    (hsize : roundHalfUp (ratio m q).1 (ratio m q).2 = size)
    (hlow : Int32.minValue.toInt ≤ s.apply size) (hhigh : s.apply size ≤ Int32.maxValue.toInt) :
    (nearestInt32 x).toInt = s.apply size := by
  have hparts : parts x = .finite (s == .negative) m q := by
    rw [parts_eq, h]
    rfl
  have hnearest : nearestInt32 x = Int32.ofIntClamp (s.apply size) := by
    rw [← hsize]
    unfold nearestInt32
    rw [hparts]
    cases s <;> rfl
  rw [hnearest]
  exact Int32.toInt_ofIntClamp hlow hhigh

/-- The ratio of a number with a negative exponent. -/
theorem ratio_of_neg {q : Int} (hq : q < 0) (m : Nat) : ratio m q = (m, 2 ^ (-q).toNat) := by
  unfold ratio
  rw [if_neg (by omega), Nat.pow_eq]

theorem nearestInt32_of_zero {x : Float} {negative : Bool}
    (h : parts x = .finite negative 0 (-1074)) : nearestInt32 x = 0 := by
  have hsize : roundHalfUp (ratio 0 (-1074)).1 (ratio 0 (-1074)).2 = 0 := by
    rw [ratio_of_neg (by omega)]
    have hmul := roundHalfUp_mul 0 (Nat.two_pow_pos (-(-1074) : Int).toNat)
    rwa [Nat.zero_mul] at hmul
  unfold nearestInt32
  rw [h]
  dsimp only
  rw [hsize]
  cases negative <;> rfl

/-! ## Bounds -/

/-- A double neither above a whole number nor below its opposite. -/
def Within (n : Nat) (x : Float) : Prop := ¬ ofInt n < x ∧ ¬ x < ofInt (-n)

theorem lt_iff (x y : Float) :
    x < y ↔ x.toModel.unpack.compare y.toModel.unpack = some .lt := by
  show decide (x.toModel < y.toModel) = true ↔ _
  rw [decide_eq_true_iff]
  show (x.toModel.unpack.compare y.toModel.unpack == some .lt) = true ↔ _
  exact beq_iff_eq

/-- A whole number and its opposite, as doubles. -/
theorem unpack_bounds {n : Nat} (hpos : 0 < n) (hn : n < 2 ^ 53) :
    (ofInt n).toModel.unpack = .finite .positive (n * 2 ^ (52 - n.log2)) ((n.log2 : Int) - 52)
        (Nat.zero_lt_of_lt (shifted_bounds hpos hn).1) ∧
      (ofInt (-n)).toModel.unpack = .finite .negative (n * 2 ^ (52 - n.log2))
        ((n.log2 : Int) - 52) (Nat.zero_lt_of_lt (shifted_bounds hpos hn).1) := by
  have habove := unpack_ofInt (Int.natAbs_natCast n) hpos hn
  have hbelow := unpack_ofInt ((Int.natAbs_neg n).trans (Int.natAbs_natCast n)) hpos hn
  rw [if_neg (by omega)] at habove
  rw [if_pos (by omega)] at hbelow
  exact ⟨habove, hbelow⟩

/-- For finite doubles it is a matter of the exponent, and then of the significand. -/
theorem within_iff {x : Float} {s : UnpackedFloat.Sign} {m : Nat} {q : Int} {hm : 0 < m}
    (h : x.toModel.unpack = .finite s m q hm) {n : Nat} (hpos : 0 < n) (hn : n < 2 ^ 53) :
    Within n x ↔ q < n.log2 - 52 ∨ q = n.log2 - 52 ∧ m ≤ n * 2 ^ (52 - n.log2) := by
  obtain ⟨habove, hbelow⟩ := unpack_bounds hpos hn
  unfold Within
  rw [lt_iff, lt_iff, h, habove, hbelow]
  cases s with
  | positive =>
    simp only [UnpackedFloat.compare, Option.some.injEq, Ordering.then_eq_lt, Int.compare_eq_lt,
      Int.compare_eq_eq, Nat.compare_eq_lt, reduceCtorEq, not_false_eq_true, and_true]
    omega
  | negative =>
    simp only [UnpackedFloat.compare, Option.some.injEq, Ordering.swap_eq_lt, Ordering.then_eq_gt,
      Int.compare_eq_gt, Int.compare_eq_eq, Nat.compare_eq_gt, reduceCtorEq, not_false_eq_true,
      true_and]
    omega

/-- The size of a finite double between two opposite whole numbers. -/
theorem roundHalfUp_of_within {x : Float} {s : UnpackedFloat.Sign} {m : Nat} {q : Int} {hm : 0 < m}
    (hx : x.toModel.unpack = .finite s m q hm) {n : Nat} (hpos : 0 < n) (hn : n < 2 ^ 31)
    (h : Within n x) : roundHalfUp (ratio m q).1 (ratio m q).2 ≤ n := by
  have hlog : n.log2 < 31 := (Nat.log2_lt (by omega)).2 hn
  obtain ⟨hlow, -⟩ := (Nat.log2_eq_iff (by omega)).1 (rfl : n.log2 = n.log2)
  have hm' := significand_lt hx
  have hbounds := (within_iff hx hpos (by omega)).1 h
  rw [ratio_of_neg (by omega)]
  refine roundHalfUp_le (Nat.two_pow_pos _) ?_
  rcases hbounds with hq | ⟨hq, hle⟩
  · -- the double is smaller than the greatest power of two in the number
    have hpower : 2 ^ 53 ≤ 2 ^ n.log2 * 2 ^ (-q).toNat := by
      rw [← Nat.pow_add]
      exact Nat.pow_le_pow_right (by omega) (by omega)
    have hscaled := Nat.mul_le_mul_right (2 ^ (-q).toNat) hlow
    show m ≤ n * 2 ^ (-q).toNat
    omega
  · rwa [show (-q).toNat = 52 - n.log2 by omega]

/-- **A double between two opposite whole numbers** is rounded to a number between them. So is the
number that is none. -/
theorem nearestInt32_within {x : Float} {n : Nat} (hpos : 0 < n) (hn : n < 2 ^ 31)
    (h : Within n x) : -(n : Int) ≤ (nearestInt32 x).toInt ∧ (nearestInt32 x).toInt ≤ n := by
  have hparts := parts_eq x
  have hbetween (hzero : nearestInt32 x = 0) :
      -(n : Int) ≤ (nearestInt32 x).toInt ∧ (nearestInt32 x).toInt ≤ n := by
    rw [hzero, show (0 : Int32).toInt = 0 from rfl]
    omega
  cases hx : x.toModel.unpack with
  | notANumber =>
    refine hbetween ?_
    unfold nearestInt32
    rw [hparts, hx]
    rfl
  | zero s => exact hbetween (nearestInt32_of_zero (hparts.trans (by rw [hx]; rfl)))
  | infinity s =>
    exfalso
    obtain ⟨habove, hbelow⟩ := unpack_bounds hpos (by omega)
    obtain ⟨hnot, hnot'⟩ := h
    rw [lt_iff, hx, habove] at hnot
    rw [lt_iff, hx, hbelow] at hnot'
    cases s with
    | positive => exact hnot rfl
    | negative => exact hnot' rfl
  | finite s m q hm =>
    have hmax : Int32.maxValue.toInt = 2147483647 := rfl
    have hmin : Int32.minValue.toInt = -2147483648 := rfl
    have hsize := roundHalfUp_of_within hx hpos hn h
    have hsigned : -(n : Int) ≤ s.apply (roundHalfUp (ratio m q).1 (ratio m q).2) ∧
        s.apply (roundHalfUp (ratio m q).1 (ratio m q).2) ≤ n := by
      generalize roundHalfUp (ratio m q).1 (ratio m q).2 = size at hsize
      cases s with
      | positive => exact ⟨by show _ ≤ (size : Int); omega, by show (size : Int) ≤ _; omega⟩
      | negative => exact ⟨by show _ ≤ -(size : Int); omega, by show -(size : Int) ≤ _; omega⟩
    rw [toInt_nearestInt32 hx rfl (by omega) (by omega)]
    exact hsigned

/-- **A whole number between two opposite ones** is between them as a double. -/
theorem within_ofInt {i : Int} {n : Nat} (hpos : 0 < n) (hn : n < 2 ^ 53) (hi : i.natAbs ≤ n) :
    Within n (ofInt i) := by
  by_cases hzero : i = 0
  · subst hzero
    obtain ⟨habove, hbelow⟩ := unpack_bounds hpos hn
    have hnone : (ofInt 0).toModel.unpack = .zero .positive := by rfl
    unfold Within
    rw [lt_iff, lt_iff, habove, hbelow, hnone]
    constructor
    · intro h
      cases h
    · intro h
      cases h
  · rw [within_iff (unpack_ofInt rfl (Int.natAbs_pos.2 hzero) (by omega)) hpos hn]
    have hlog : i.natAbs.log2 ≤ n.log2 :=
      (Nat.le_log2 (by omega)).2 (Nat.le_trans (Nat.log2_self_le (by omega)) hi)
    rcases Nat.lt_or_eq_of_le hlog with hlt | heq
    · exact .inl (by omega)
    · refine .inr ⟨by omega, ?_⟩
      rw [heq]
      exact Nat.mul_le_mul_right _ hi

end Observatory.Number
