import Observatory.Number.Binary
/-!
# Whole numbers and doubles

The double of a whole number, the nearest whole number, where a half goes away from zero, and the
one without the fraction.
-/

namespace Observatory.Number

/-- The double nearest to a whole number; a half goes to the even neighbour. -/
def ofInt (i : Int) : Float := .ofModel (.ofInt i)

/-- A double without its fraction as a word of 64 bits. What lies outside of the words goes to the
nearest end, and a number that is none to zero. -/
def truncateInt64 (x : Float) : Int64 := x.toModel.toInt64

/-- The whole number nearest to a ratio; a half is rounded up. -/
def roundHalfUp (num den : Nat) : Nat := (2 * num + den) / (2 * den)

/-- A word of 32 bits next to a double. What lies outside of the words goes to the nearest end, and
a number that is none to zero. -/
def nearestInt32 (x : Float) : Int32 :=
  match parts x with
  | .nan => 0
  | .infinite negative => if negative then Int32.minValue else Int32.maxValue
  | .finite negative m q =>
    let (num, den) := ratio m q
    let size : Nat := roundHalfUp num den
    Int32.ofIntClamp (if negative then -(size : Int) else size)

end Observatory.Number
