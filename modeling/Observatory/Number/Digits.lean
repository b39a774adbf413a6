import Observatory.Number.Binary
import Observatory.Number.Integer
/-!
# Decimal digits of a binary number

Two ways to choose the digits of a positive number `m * 2 ^ q`. The *shortest* digits are the
fewest that read back as the same number, and of those the nearest. A *fixed* count of digits
is rounded correctly, a half going to the even neighbour. Both work on exact ratios.
-/

namespace Observatory.Number

/-! ## Powers of ten -/

/-- `num / den` divided by `10 ^ k`, as a ratio. -/
def scaleTen (num den : Nat) (k : Int) : Nat × Nat :=
  if 0 ≤ k then (num, den * Nat.pow 10 k.toNat) else (num * Nat.pow 10 (-k).toNat, den)

/-- The place of the first digit of a positive ratio: `10 ^ e ≤ num / den < 10 ^ (e + 1)`. -/
def leadingPlace (num den : Nat) : Int :=
  let e : Int := ((natText num).length : Int) - (natText den).length
  let (n, d) := scaleTen num den e
  if d ≤ n then e else e - 1

/-! ## Shortest digits -/

/-- The reals that round to one number, as numerators over a common denominator. The two ends
belong to it exactly when the significand is even. -/
structure Interval where
  low : Nat
  value : Nat
  high : Nat
  den : Nat
  closed : Bool

/-- The interval of `m * 2 ^ q`: half a gap on each side, and a quarter below a power of two,
where the numbers underneath lie twice as close. -/
def interval (f : Format) (m : Nat) (q : Int) : Interval :=
  let below := if m = Nat.pow 2 (f.precision - 1) && f.minExponent < q then 1 else 2
  let (unit, den) := ratio 1 (q - 2)
  ⟨(4 * m - below) * unit, 4 * m * unit, (4 * m + 2) * unit, den, m % 2 == 0⟩

/-- Whether `c * 10 ^ k` lies in the interval. -/
def Interval.holds (i : Interval) (c : Nat) (k : Int) : Bool :=
  let c' := if 0 ≤ k then c * Nat.pow 10 k.toNat * i.den else c * i.den
  let scale := if 0 ≤ k then 1 else Nat.pow 10 (-k).toNat
  let low := i.low * scale
  let high := i.high * scale
  if i.closed then low ≤ c' && c' ≤ high else low < c' && c' < high

/-- The multiple of `10 ^ k` inside the interval that is nearest to the value, if one of the
value's two neighbours on that grid is inside; of two equally near ones the greater. -/
def Interval.onGrid (i : Interval) (k : Int) : Option Nat :=
  let (n, d) := scaleTen i.value i.den k
  let c := n / d
  match i.holds c k, i.holds (c + 1) k with
  | true, true => if 2 * (n % d) < d then some c else some (c + 1)
  | true, false => some c
  | false, true => some (c + 1)
  | false, false => none

/-- Tries ever finer grids, `tries` of them, the first at the place `k`. -/
def Interval.shortestFrom (i : Interval) : Nat → Int → Nat × Int
  | 0, k => ((scaleTen i.value i.den k).1 / (scaleTen i.value i.den k).2, k)
  | tries + 1, k =>
    match i.onGrid k with
    | some c => (c, k)
    | none => i.shortestFrom tries (k - 1)

/-- The digits of a positive double and the exponent of the last of them: the fewest that read
back, and of those the nearest. Seventeen always suffice. -/
def shortest (m : Nat) (q : Int) : Nat × Int :=
  let i := interval binary64 m q
  i.shortestFrom 17 (leadingPlace i.value i.den)

/-! ## Layouts -/

/-- The digits without the zeros behind, and the exponent of the last digit kept. -/
def dropZeros (digits : List Char) (exponent : Int) : List Char × Int :=
  let kept := (digits.reverse.dropWhile (· == '0')).reverse
  (kept, exponent + (digits.length - kept.length))

/-- Positional notation, never with an exponent, and without a point if no digit follows it. -/
def positional (digits : List Char) (exponent : Int) : List Char :=
  if 0 ≤ exponent then digits ++ List.replicate exponent.toNat '0'
  else
    let places := (-exponent).toNat
    let padded := padZeros (places + 1) digits
    padded.take (padded.length - places) ++ '.' :: padded.drop (padded.length - places)

/-- One digit, a point if more follow, the rest, and the exponent of the first digit. -/
def scientific (digits : List Char) (exponent : Int) : List Char :=
  let mantissa := match digits with
    | d :: e :: ds => d :: '.' :: e :: ds
    | ds => ds
  mantissa ++ 'e' :: intText (exponent + digits.length - 1)

def shortestPositional (m : Nat) (q : Int) : List Char :=
  if m = 0 then ['0']
  else
    let (c, k) := shortest m q
    let (ds, e) := dropZeros (natText c) k
    positional ds e

def shortestScientific (m : Nat) (q : Int) : List Char :=
  if m = 0 then ['0', 'e', '0']
  else
    let (c, k) := shortest m q
    let (ds, e) := dropZeros (natText c) k
    scientific ds e

/-- Exactly `places` digits behind the point. -/
def fixedPlaces (places m : Nat) (q : Int) : List Char :=
  let (n, d) := ratio m q
  positional (padZeros (places + 1) (natText (roundDiv (n * Nat.pow 10 places) d))) (-places)

/-- One digit before the point, exactly `places` behind it, and an exponent. -/
def fixedScientific (places m : Nat) (q : Int) : List Char :=
  if m = 0 then '0' :: '.' :: List.replicate places '0' ++ ['e', '0']
  else
    let (n, d) := ratio m q
    let k := leadingPlace n d - places
    let (n, d) := scaleTen n d k
    let c := roundDiv n d
    if c < Nat.pow 10 (places + 1) then scientific (natText c) k
    else scientific (natText (c / 10)) (k + 1)

end Observatory.Number
