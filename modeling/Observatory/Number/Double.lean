import Observatory.Number.Decimal
import Observatory.Number.Digits
/-!
# Doubles in records and on the screen

Three spellings of a double. On the wire it has twenty places and an exponent, which is more
than enough to read it back. For people it has six places in the everyday range and shortest
digits with an exponent outside it. In error texts it has shortest digits and no exponent.
-/

namespace Observatory.Number

/-- A sign in front of the magnitude of a negative number, zero included. -/
def withSign (negative : Bool) (cs : List Char) : List Char := if negative then '-' :: cs else cs

/-- Twenty places and an exponent; a number that is none is `nan`. -/
def wireDouble (x : Float) : List Char :=
  match parts x with
  | .nan => "nan".toList
  | .infinite negative => withSign negative "inf".toList
  | .finite negative m q => withSign negative (fixedScientific 20 m q)

/-- A number of single precision is written like the double of the same value. -/
def wireSingle (x : Float32) : List Char :=
  if x.isNaN then "nan".toList else wireDouble x.toFloat

/-- Six places for zero and for magnitudes from a thousandth to below a hundred million, shortest
digits with an exponent for the others. -/
def displayDouble (x : Float) : List Char :=
  match parts x with
  | .nan => "nan".toList
  | .infinite negative => withSign negative "inf".toList
  | .finite negative m q =>
    let everyday := x == 0.0 || (1e-3 ≤ x.abs && x.abs < 1e8)
    withSign negative (if everyday then fixedPlaces 6 m q else shortestScientific m q)

/-- Shortest digits without an exponent, as error texts show a number. -/
def plainDouble (x : Float) : List Char :=
  match parts x with
  | .nan => "NaN".toList
  | .infinite negative => withSign negative "inf".toList
  | .finite negative m q => withSign negative (shortestPositional m q)

end Observatory.Number
