import Observatory.Number.Binary
import Observatory.Number.Integer
/-!
# Reading decimal numbers

The text of a floating number is an optional sign and then one of the words `inf`, `infinity`
and `nan`, in any case, or decimal digits with an optional point and an optional exponent. At
least one digit stands before or behind the point, and at least one in the exponent. The
number read is the one of the format nearest to the decimal.
-/

namespace Observatory.Number

/-! ## The grammar -/

/-- An unsigned decimal as it is written. -/
inductive Numeral where
  | infinity
  | nan
  /-- `digits * 10 ^ exponent`. -/
  | decimal (digits : Nat) (exponent : Int)
  deriving Repr, DecidableEq

def lowerAscii (cs : List Char) : List Char := cs.map Char.toLower

/-- The sign in front of a numeral, true for a minus, and the text behind it. -/
def splitSign : List Char → Bool × List Char
  | '-' :: cs => (true, cs)
  | '+' :: cs => (false, cs)
  | cs => (false, cs)

/-- The size from which on an exponent is full. -/
def fullExponent : Nat := 65536

/-- One more digit of an exponent. A full exponent takes no digit. -/
def addExponentDigit (n : Nat) (c : Char) : Nat :=
  if n < fullExponent then 10 * n + (c.toNat - '0'.toNat) else n

/-- The size of an exponent: what its digits say, up to the one that makes it full. Only next to
tens of thousands of digits in front of it can a full exponent stand for a number that is neither
zero nor out of reach. -/
def exponentOf (ds : List Char) : Nat := ds.foldl addExponentDigit 0

/-- An exponent: empty, or a letter `e` of either case, an optional sign and at least one digit. -/
def readExponent : List Char → Option Int
  | [] => some 0
  | c :: cs =>
    if c.toLower = 'e' then
      let (negative, ds) := splitSign cs
      if ds ≠ [] ∧ ds.all Char.isDigit then
        some (if negative then -(exponentOf ds : Int) else exponentOf ds)
      else none
    else none

/-- Digits, an optional point with digits, and an optional exponent. -/
def readDecimal (cs : List Char) : Option Numeral :=
  let whole := cs.takeWhile Char.isDigit
  let rest := cs.dropWhile Char.isDigit
  let (fraction, rest) := match rest with
    | '.' :: tail => (tail.takeWhile Char.isDigit, tail.dropWhile Char.isDigit)
    | _ => ([], rest)
  if whole.isEmpty && fraction.isEmpty then none
  else (readExponent rest).map fun e =>
    .decimal (Nat.ofDigitChars 10 (whole ++ fraction) 0) (e - fraction.length)

def readNumeral (cs : List Char) : Option Numeral :=
  let word := String.ofList (lowerAscii cs)
  if word = "inf" || word = "infinity" then some .infinity
  else if word = "nan" then some .nan
  else readDecimal cs

/-! ## Rounding to a format -/

/-- The bit pattern nearest to `digits * 10 ^ exponent`, without a sign. A decimal whose first
digit stands more than 400 places from the point is out of reach of both formats, so its power
of ten is never computed. -/
def Format.decimalBits (f : Format) (digits : Nat) (exponent : Int) : Nat :=
  if digits = 0 then 0
  else
    let lead := exponent + (natText digits).length
    if 400 < lead then f.infinityBits
    else if lead < -400 then 0
    else if 0 ≤ exponent then f.nearestBits (digits * Nat.pow 10 exponent.toNat) 1
    else f.nearestBits digits (Nat.pow 10 (-exponent).toNat)

def readDouble (cs : List Char) : Option Float :=
  let (negative, body) := splitSign cs
  (readNumeral body).map fun numeral =>
    let magnitude : Float := match numeral with
      | .infinity => Float.ofBits binary64.infinityBits.toUInt64
      | .nan => Float.ofBits 0x7ff8000000000000
      | .decimal d e => Float.ofBits (binary64.decimalBits d e).toUInt64
    if negative then -magnitude else magnitude

/-- Reads a number of single precision, rounded once. -/
def readSingle (cs : List Char) : Option Float32 :=
  let (negative, body) := splitSign cs
  (readNumeral body).map fun numeral =>
    let magnitude : Float32 := match numeral with
      | .infinity => Float32.ofBits binary32.infinityBits.toUInt32
      | .nan => Float32.ofBits 0x7fc00000
      | .decimal d e => Float32.ofBits (binary32.decimalBits d e).toUInt32
    if negative then -magnitude else magnitude

end Observatory.Number
