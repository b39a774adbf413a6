import Observatory.Proofs.Number.Nearest
import Observatory.Proofs.Number.Wire
/-!
# Sums that are no number

A double between two opposite whole numbers is finite, or no number at all. What is added to a
finite double or taken away from it decides alone whether the result is a number.

* `le_of_within` — a number that is not outside of bounds is inside of them.
* `isNaN_add`, `isNaN_sub` — whether a sum or a difference is a number.
-/

namespace Observatory.Number

open Float.Model (UnpackedFloat)

/-! ## Packed numbers -/

/-- A bit pattern stands for no number if all bits of its exponent are set and some bit of its
fraction is. -/
theorem isNaN_unpack_packComponents {s : UnpackedFloat.Sign} {e : BitVec 11} {m : BitVec 52}
    (h : e ≠ -1#_) :
    (UnpackedFloat.unpack .binary64 (UnpackedFloat.packComponents .binary64 s e m)).isNaN =
      false := by
  unfold UnpackedFloat.unpack
  simp only [UnpackedFloat.unpackMantissa_packComponents,
    UnpackedFloat.unpackExponent_packComponents]
  rw [if_neg h]
  split
  · split <;> rfl
  · rfl

/-- Packing makes no number of what is none, and of nothing else. -/
theorem isNaN_unpack_pack (f : UnpackedFloat) :
    (UnpackedFloat.unpack .binary64 (UnpackedFloat.pack .binary64 f)).isNaN = f.isNaN := by
  have hinfinity (s : UnpackedFloat.Sign) : (UnpackedFloat.unpack .binary64
      (UnpackedFloat.packedInfinity .binary64 s)).isNaN = false := by
    cases s <;> rfl
  cases f with
  | notANumber => rfl
  | infinity s => exact hinfinity s
  | zero s => cases s <;> rfl
  | finite s m q hm =>
    show _ = false
    unfold UnpackedFloat.pack
    dsimp only
    split
    · exact hinfinity s
    · next hsmall =>
      split
      · refine isNaN_unpack_packComponents fun hfull => ?_
        have hvalue := congrArg BitVec.toNat hfull
        rw [BitVec.toNat_ofNat] at hvalue
        change _ = 2047 at hvalue
        change ¬ 2 ^ 11 ≤ _ at hsmall
        change _ % 2 ^ 11 = 2047 at hvalue
        omega
      · exact isNaN_unpack_packComponents (by decide)

theorem isNaN_ofModel_pack (f : UnpackedFloat) :
    (Float.ofModel (.pack f)).isNaN = f.isNaN := isNaN_unpack_pack f

/-! ## Sums and differences -/

theorem isNaN_normalize (n : Int) (q : Int) (s : UnpackedFloat.Sign) :
    (UnpackedFloat.normalize .binary64 n q s).isNaN = false := by
  have hround (s : UnpackedFloat.Sign) (m : Nat) :
      (UnpackedFloat.round .binary64 s m q).isNaN = false := by
    unfold UnpackedFloat.round UnpackedFloat.roundWithAccuracy
    dsimp only
    split <;> rfl
  unfold UnpackedFloat.normalize
  split
  · exact hround _ _
  · rfl
  · exact hround _ _

/-- A double that is a number and is not infinite. -/
def IsFinite (x : Float) : Prop := x.toModel.unpack.isFinite = true

section

variable {x : Float}

theorem isNaN_add (h : IsFinite x) (y : Float) : (x + y).isNaN = y.isNaN := by
  show (Float.ofModel (.pack (UnpackedFloat.add .binary64 x.toModel.unpack
    y.toModel.unpack))).isNaN = y.toModel.unpack.isNaN
  rw [isNaN_ofModel_pack]
  unfold IsFinite at h
  generalize x.toModel.unpack = a, y.toModel.unpack = b at h ⊢
  cases a with
  | notANumber => cases h
  | infinity s => cases h
  | zero s =>
    cases b with
    | zero s' =>
      unfold UnpackedFloat.add
      dsimp only
      split <;> rfl
    | _ => rfl
  | finite s m q hm =>
    cases b with
    | finite s' m' q' hm' => exact isNaN_normalize _ _ _
    | _ => rfl

theorem isNaN_sub (h : IsFinite x) (y : Float) : (x - y).isNaN = y.isNaN := by
  show (Float.ofModel (.pack (UnpackedFloat.sub .binary64 x.toModel.unpack
    y.toModel.unpack))).isNaN = y.toModel.unpack.isNaN
  rw [isNaN_ofModel_pack]
  unfold IsFinite at h
  generalize x.toModel.unpack = a, y.toModel.unpack = b at h ⊢
  cases a with
  | notANumber => cases h
  | infinity s => cases h
  | zero s =>
    cases b with
    | zero s' =>
      unfold UnpackedFloat.sub
      dsimp only
      split <;> rfl
    | _ => rfl
  | finite s m q hm =>
    cases b with
    | finite s' m' q' hm' => exact isNaN_normalize _ _ _
    | _ => rfl

/-! ## Bounds -/

/-- A number that is not outside of bounds is finite. -/
theorem isFinite_of_within {n : Nat} (hpos : 0 < n) (hn : n < 2 ^ 53) (h : Within n x)
    (hnumber : x.isNaN = false) : IsFinite x := by
  obtain ⟨habove, hbelow⟩ := unpack_bounds hpos hn
  obtain ⟨hnot, hnot'⟩ := h
  change x.toModel.unpack.isNaN = false at hnumber
  rw [lt_iff, habove] at hnot
  rw [lt_iff, hbelow] at hnot'
  unfold IsFinite
  generalize x.toModel.unpack = a at hnot hnot' hnumber ⊢
  cases a with
  | notANumber => cases hnumber
  | infinity s =>
    exfalso
    cases s with
    | positive => exact hnot rfl
    | negative => exact hnot' rfl
  | zero s => rfl
  | finite s m q hm => rfl

/-- The order of two doubles, seen from either side. -/
theorem compare_swap (a b : UnpackedFloat) : b.compare a = (a.compare b).map Ordering.swap := by
  cases a with
  | notANumber => cases b <;> rfl
  | infinity s =>
    cases b with
    | infinity s' => cases s <;> cases s' <;> rfl
    | _ => cases s <;> rfl
  | zero s =>
    cases b with
    | infinity s' => cases s' <;> rfl
    | finite s' m q hm => cases s' <;> rfl
    | _ => rfl
  | finite s m q hm =>
    cases b with
    | notANumber => cases s <;> rfl
    | infinity s' => cases s <;> cases s' <;> rfl
    | zero s' => cases s <;> rfl
    | finite s' m' q' hm' =>
      have hexponent : compare q' q = (compare q q').swap := (Int.compare_swap q q').symm
      have hsize : compare m' m = (compare m m').swap := (Nat.compare_swap m m').symm
      cases s with
      | positive =>
        cases s' with
        | positive => simp [UnpackedFloat.compare, hexponent, hsize, Ordering.swap_then]
        | negative => rfl
      | negative =>
        cases s' with
        | positive => rfl
        | negative => simp [UnpackedFloat.compare, hexponent, hsize, Ordering.swap_then]

theorem isSome_compare {a b : UnpackedFloat} (ha : a.isNaN = false) (hb : b.isNaN = false) :
    (a.compare b).isSome = true := by
  cases a with
  | notANumber => cases ha
  | infinity s =>
    cases b with
    | notANumber => cases hb
    | _ => cases s <;> rfl
  | zero s =>
    cases b with
    | notANumber => cases hb
    | infinity s' => cases s' <;> rfl
    | finite s' m q hm => cases s' <;> rfl
    | _ => rfl
  | finite s m q hm =>
    cases b with
    | notANumber => cases hb
    | infinity s' => cases s <;> cases s' <;> rfl
    | zero s' => cases s <;> rfl
    | finite s' m' q' hm' => cases s <;> cases s' <;> rfl

/-- Of two numbers the one that is not below the other is above it or equal. -/
theorem le_of_not_lt {y : Float} (hx : x.isNaN = false) (hy : y.isNaN = false) (h : ¬ y < x) :
    x ≤ y := by
  change x.toModel.unpack.isNaN = false at hx
  change y.toModel.unpack.isNaN = false at hy
  have hsome := isSome_compare hx hy
  have hswap := compare_swap x.toModel.unpack y.toModel.unpack
  rw [lt_iff] at h
  show decide (x.toModel ≤ y.toModel) = true
  rw [decide_eq_true_iff]
  show ((x.toModel.unpack.compare y.toModel.unpack).any (·.isLE)) = true
  cases horder : x.toModel.unpack.compare y.toModel.unpack with
  | none => rw [horder] at hsome; cases hsome
  | some o =>
    cases o with
    | lt => rfl
    | eq => rfl
    | gt => exact absurd (by rw [hswap, horder]; rfl) h

/-- Neither outside of bounds nor no number is inside of them. -/
theorem le_of_within {n : Nat} (hpos : 0 < n) (hn : n < 2 ^ 53) (h : Within n x)
    (hnumber : x.isNaN = false) : ofInt (-n) ≤ x ∧ x ≤ ofInt n := by
  obtain ⟨habove, hbelow⟩ := unpack_bounds hpos hn
  have hhigh : (ofInt n).isNaN = false := by
    show (ofInt n).toModel.unpack.isNaN = false
    rw [habove]
    rfl
  have hlow : (ofInt (-n)).isNaN = false := by
    show (ofInt (-n)).toModel.unpack.isNaN = false
    rw [hbelow]
    rfl
  exact ⟨le_of_not_lt hlow hnumber h.2, le_of_not_lt hnumber hhigh h.1⟩

end

end Observatory.Number
