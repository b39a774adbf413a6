import Observatory.Proofs.Record.Tokens
import Observatory.Value.Scalar
/-!
# Numbers on the wire

A double that is no number has one bit pattern, so it is read back as what it is. For every other
double it is a property of the two directions of the decimal conversion that its text is read
back, and what is proved about values takes it for granted: `ReadsBack`.

* `toDouble_wireDouble`, `toSingle_wireSingle` — a written number is read back.
* `toDegrees_wireDouble`, `toAscension_wireDouble` — also where an angle is expected.
-/

namespace Observatory

open Text (numeral_wireDouble numeral_wireSingle)
open Token (Bare)

/-! ## What is no number -/

open Float.Model in
/-- A bit pattern that stands for no number is the one that such a number has. -/
theorem eq_packedNaN_of_isNaN {spec : Float.Model.Format} {b : BitVec spec.numBits}
    (hvalid : spec.Valid b) (h : (UnpackedFloat.unpack spec b).isNaN = true) :
    b = UnpackedFloat.packedNaN spec := by
  unfold UnpackedFloat.unpack at h
  dsimp only at h
  by_cases hexponent : UnpackedFloat.unpackExponent b = -1#_
  · rw [if_pos hexponent] at h
    by_cases hmantissa : UnpackedFloat.unpackMantissa b = 0#_
    · rw [if_pos hmantissa] at h
      cases h
    · exact hvalid.eq_packedNaN hexponent hmantissa
  · rw [if_neg hexponent] at h
    by_cases hzero : UnpackedFloat.unpackExponent b = 0#_
    · rw [if_pos hzero] at h
      by_cases hmantissa : UnpackedFloat.unpackMantissa b = 0#_
      · rw [dif_pos hmantissa] at h
        cases h
      · rw [dif_neg hmantissa] at h
        cases h
    · rw [if_neg hzero] at h
      cases h

theorem eq_nan_of_isNaN {x : Float} (h : x.isNaN = true) : x = nan := by
  obtain ⟨⟨bits, hvalid⟩⟩ := x
  have hbits : bits = nan.toBits := UInt64.toBitVec_inj.1 (eq_packedNaN_of_isNaN hvalid h)
  subst hbits
  rfl

theorem eq_nanSingle_of_isNaN {x : Float32} (h : x.isNaN = true) : x = nanSingle := by
  obtain ⟨⟨bits, hvalid⟩⟩ := x
  have hbits : bits = nanSingle.toBits := UInt32.toBitVec_inj.1 (eq_packedNaN_of_isNaN hvalid h)
  subst hbits
  rfl

/-! ## Reading -/

namespace Number

/-- The text of a number with twenty places is read back. -/
def ReadsBack (x : Float) : Prop := x.isNaN = false → readDouble (wireDouble x) = some x

/-- The text of a number of single precision is read back. -/
def ReadsBackSingle (x : Float32) : Prop := x.isNaN = false → readSingle (wireSingle x) = some x

theorem readDouble_wireDouble {x : Float} (h : ReadsBack x) :
    readDouble (wireDouble x) = some x := by
  cases hnan : x.isNaN with
  | false => exact h hnan
  | true =>
    rw [eq_nan_of_isNaN hnan]
    decide +kernel

theorem readSingle_wireSingle {x : Float32} (h : ReadsBackSingle x) :
    readSingle (wireSingle x) = some x := by
  cases hnan : x.isNaN with
  | false => exact h hnan
  | true =>
    rw [eq_nanSingle_of_isNaN hnan]
    decide +kernel

theorem bare_wireDouble {x : Float} (h : ReadsBack x) : Bare (wireDouble x) := by
  refine Token.Numeral.bare (fun hnil => ?_) (numeral_wireDouble x)
  have hread := readDouble_wireDouble h
  rw [hnil] at hread
  cases hread

theorem bare_wireSingle {x : Float32} (h : ReadsBackSingle x) : Bare (wireSingle x) := by
  refine Token.Numeral.bare (fun hnil => ?_) (numeral_wireSingle x)
  have hread := readSingle_wireSingle h
  rw [hnil] at hread
  cases hread

/-- A numeral has no parts. -/
theorem readAngle_of_numeral {cs : List Char} (h : Text.Numeral cs) :
    readAngle cs = (readDouble cs).map fun x => (x, false) := by
  have hcolon : cs.contains ':' = false := by
    rw [← Bool.not_eq_true, List.contains_iff_mem]
    intro hmem
    exact absurd (h ':' hmem) (by decide)
  unfold readAngle
  rw [hcolon, if_neg Bool.false_ne_true]

end Number

/-! ## Tokens -/

theorem toDouble_wireDouble {x : Float} (h : Number.ReadsBack x) :
    Token.toDouble (Number.wireDouble x) = .ok x := by
  rw [Token.toDouble, Number.readDouble_wireDouble h]

theorem toSingle_wireSingle {x : Float32} (h : Number.ReadsBackSingle x) :
    Token.toSingle (Number.wireSingle x) = .ok x := by
  rw [Token.toSingle, Number.readSingle_wireSingle h]

theorem toDegrees_wireDouble {x : Float} (h : Number.ReadsBack x) :
    Scalar.toDegrees (Number.wireDouble x) = .ok x := by
  have hread : Number.readDegrees (Number.wireDouble x) = some x := by
    simp [Number.readDegrees, Number.readAngle_of_numeral (numeral_wireDouble x),
      Number.readDouble_wireDouble h]
  rw [Scalar.toDegrees, hread]

theorem toAscension_wireDouble {x : Float} (h : Number.ReadsBack x) :
    Scalar.toAscension (Number.wireDouble x) = .ok x := by
  have hread : Number.readAscension (Number.wireDouble x) = some x := by
    simp [Number.readAscension, Number.readAngle_of_numeral (numeral_wireDouble x),
      Number.readDouble_wireDouble h]
  rw [Scalar.toAscension, hread]

end Observatory
