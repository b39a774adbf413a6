/-!
# Binary floating-point numbers

A binary format is given by three numbers: the bits of its significand and its least and
greatest exponent. Every non-negative finite number of the format is `m * 2 ^ q`, and its bit
pattern is `(q - minExponent) * 2 ^ (precision - 1) + m`, for subnormal numbers too. The next
bit pattern is therefore the next number, and rounding a ratio needs no case for a carry.

* `roundDiv_close` — a rounded quotient is at most half a unit away.
-/

namespace Observatory.Number

/-! ## Rounding -/

/-- The whole number nearest to `num / den`; a half goes to the even neighbour. -/
def roundDiv (num den : Nat) : Nat :=
  let q := num / den
  let r := num % den
  if 2 * r < den then q else if den < 2 * r then q + 1 else q + q % 2

/-- A rounded quotient is at most half a unit away. -/
theorem roundDiv_close (num : Nat) {den : Nat} (h0 : 0 < den) :
    2 * num ≤ 2 * (roundDiv num den * den) + den ∧
      2 * (roundDiv num den * den) ≤ 2 * num + den := by
  have h := Nat.div_add_mod num den
  have hr := Nat.mod_lt num h0
  simp only [roundDiv]
  generalize num / den = q at h ⊢
  generalize num % den = r at h hr ⊢
  subst h
  have hc : den * q = q * den := Nat.mul_comm _ _
  have hs : (q + 1) * den = q * den + den := Nat.succ_mul _ _
  rcases Nat.mod_two_eq_zero_or_one q with h2 | h2 <;> rw [h2] <;> split <;> try split
  all_goals first
    | omega
    | (rw [Nat.add_zero]; omega)

/-! ## Formats -/

/-- A binary format: the bits of the significand, the exponent of the least positive number and
the exponent of the greatest finite one. -/
structure Format where
  precision : Nat
  minExponent : Int
  maxExponent : Int

def binary64 : Format := ⟨53, -1074, 971⟩

def binary32 : Format := ⟨24, -149, 104⟩

namespace Format

/-- The bit pattern of infinity: one past the greatest finite number. -/
def infinityBits (f : Format) : Nat :=
  (f.maxExponent - f.minExponent + 2).toNat * Nat.pow 2 (f.precision - 1)

/-- `num / den` divided by `2 ^ q`, as a ratio. -/
def scaleDown (num den : Nat) (q : Int) : Nat × Nat :=
  if 0 ≤ q then (num, den * Nat.pow 2 q.toNat) else (num * Nat.pow 2 (-q).toNat, den)

/-- The exponent at which `num / den` has a significand of at most `precision` bits. -/
def exponentOf (f : Format) (num den : Nat) : Int :=
  let q := max f.minExponent ((num.log2 : Int) - (den.log2 : Int) - (f.precision : Int))
  let scaled := scaleDown num den q
  if scaled.1 / scaled.2 < Nat.pow 2 f.precision then q else q + 1

/-- The bit pattern of the number nearest to `num / den`, without a sign. What is too great for
the format is infinity. -/
def nearestBits (f : Format) (num den : Nat) : Nat :=
  if num = 0 then 0
  else
    let q := f.exponentOf num den
    let (n, d) := scaleDown num den q
    -- a significand that rounds up to the next power of two carries into the exponent
    min f.infinityBits ((q - f.minExponent).toNat * Nat.pow 2 (f.precision - 1) + roundDiv n d)

end Format

/-! ## Taking a double apart -/

/-- What a double stands for: its sign, and for a finite number `m * 2 ^ q`. -/
inductive Parts where
  | nan
  | infinite (negative : Bool)
  | finite (negative : Bool) (m : Nat) (q : Int)
  deriving Repr, DecidableEq

def partsOfBits (bits : Nat) : Parts :=
  let negative := decide (Nat.pow 2 63 ≤ bits)
  let magnitude : Nat := bits % Nat.pow 2 63
  let field : Nat := magnitude / Nat.pow 2 52
  let fraction : Nat := magnitude % Nat.pow 2 52
  if field = 2047 then if fraction = 0 then .infinite negative else .nan
  else if field = 0 then .finite negative fraction (-1074)
  else .finite negative (fraction + Nat.pow 2 52) ((field : Int) - 1075)

def parts (x : Float) : Parts := partsOfBits x.toBits.toNat

/-- A non-negative finite number as a ratio of naturals. -/
def ratio (m : Nat) (q : Int) : Nat × Nat :=
  if 0 ≤ q then (m * Nat.pow 2 q.toNat, 1) else (m, Nat.pow 2 (-q).toNat)

end Observatory.Number
