/-!
# Likeness of words

How alike two words are, as a number from zero to one. Letters count that both words have at
about the same place; letters in another order count less, and a common beginning counts more.
A word that is much like one that a program knows is taken for a slip of the pen.
-/

namespace Observatory.CommandLine.Likeness

/-- The letters of one word that were found in another. -/
structure Found where
  /-- Their places in the other word, the last one found first. -/
  places : List Nat := []
  /-- How many were found in front of the one found before. -/
  backward : Nat := 0

/-- Looks for the letter at place `i` of a word among the letters of the other word that are no
further than `reach` from there and that were not found before. -/
def look (other : List Char) (reach : Nat) (f : Found) (letter : Char × Nat) : Found :=
  let (c, i) := letter
  let fits := fun (d, j) => d == c && i ≤ j + reach && j ≤ i + reach && !f.places.contains j
  match other.zipIdx.find? fits with
  | none => f
  | some (_, j) =>
    { places := j :: f.places
      backward := if j < f.places.headD 0 then f.backward + 1 else f.backward }

/-- The letters of a word that are found in another, no further away than half the length of the
longer one. -/
def common (a b : List Char) : Found :=
  a.zipIdx.foldl (look b (max a.length b.length / 2 - 1)) {}

/-- The mean of the shares of common letters in both words and the share of those in order. -/
def agreement (a b : List Char) : Float :=
  let f := common a b
  let found := f.places.length.toFloat
  if a = b then 1.0
  else if f.places.isEmpty || (a.length = 1 && b.length = 1) then 0.0
  else
    (1.0 / 3.0) * (found / a.length.toFloat + found / b.length.toFloat +
      (found - f.backward.toFloat) / found)

/-- The length of the common beginning. -/
def sharedStart (a b : List Char) : Nat := ((a.zip b).takeWhile fun (c, d) => c == d).length

/-- How alike two words are; each letter of a common beginning makes up a tenth of what is
missing. -/
def likeness (a b : List Char) : Float :=
  let x := agreement a b
  x + 0.1 * (sharedStart a b).toFloat * (1.0 - x)

def resemblesAny (word : String) (known : List String) : Bool :=
  known.any fun k => 0.8 < likeness word.toList k.toList

end Observatory.CommandLine.Likeness
