import Observatory.Number.Decimal
import Observatory.Text.Blank
/-!
# Angles

An angle is a decimal number of degrees, or a sign and up to three parts with colons between
them: degrees, minutes and seconds. A right ascension in parts counts hours, of fifteen
degrees each.
-/

namespace Observatory.Number

/-- The pieces between the occurrences of a separator; there is always at least one. -/
def splitOnChar (separator : Char) (cs : List Char) : List (List Char) :=
  let (piece, pieces) := cs.foldr
    (fun c (piece, pieces) => if c = separator then ([], piece :: pieces) else (c :: piece, pieces))
    (([] : List Char), ([] : List (List Char)))
  piece :: pieces

/-- Reads every piece as a number, none of them negative. -/
def readParts (pieces : List (List Char)) : Option (List Float) :=
  pieces.mapM fun piece => (readDouble piece).bind fun x => if x < 0.0 then none else some x

/-- The sum of the parts, each worth a sixtieth of the one before. -/
def sumParts (xs : List Float) : Float :=
  (xs.foldl (fun (sum, scale) x => (sum + x / scale, scale * 60.0))
    ((0.0 : Float), (1.0 : Float))).1

/-- An angle in its own unit, and whether it was written in parts. -/
def readAngle (token : List Char) : Option (Float × Bool) :=
  if token.contains ':' then
    let (negative, body) := splitSign token
    let pieces := splitOnChar ':' body
    if 3 < pieces.length then none
    else (readParts pieces).map fun xs =>
      let sum := sumParts xs
      (if negative then -sum else sum, true)
  else (readDouble token).map fun x => (x, false)

def readDegrees (token : List Char) : Option Float := (readAngle token).map Prod.fst

def readAscension (token : List Char) : Option Float :=
  (readAngle token).map fun (x, inParts) => if inParts then x * 15.0 else x

end Observatory.Number
