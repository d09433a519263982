import SchemaDiagram.Decimal.Basic

/-!
# Rounding to binary

Numbers with a fraction are computed with in binary, with 53 significant bits and exponents from
-1074 up. This module finds the binary number nearest to a fraction, in exact arithmetic on
natural numbers; of two that are equally near it takes the one with an even mantissa. Numbers
whose exponent would pass 971 are out of range. It also tells which binary numbers are whole.
-/

namespace SchemaDiagram

/-- The number `mantissa · 2 ^ exponent`. -/
structure Binary where
  mantissa : Nat
  exponent : Int
  deriving DecidableEq, Repr, Inhabited

namespace Binary

/-- The least exponent. -/
def minExponent : Int := -1074

/-- The greatest exponent. -/
def maxExponent : Int := 971

/-- The mantissa of a number that has all 53 bits is at least this, which is `2 ^ 52`. -/
def leastFull : Nat := 4503599627370496

/-- The quotient rounded to the nearest natural number, and to the even one if two are nearest. -/
def roundDiv (num den : Nat) : Nat :=
  let floor := num / den
  let rest := num % den
  if 2 * rest > den ∨ (2 * rest = den ∧ floor % 2 = 1) then floor + 1 else floor

/-- The quotient divided by a power of two, as a fraction. -/
def scale (num den : Nat) (exponent : Int) : Nat × Nat :=
  if 0 ≤ exponent then (num, den * Nat.pow 2 exponent.toNat)
  else (num * Nat.pow 2 (-exponent).toNat, den)

/-- The greatest exponent `e` such that `2 ^ e` does not pass the quotient. -/
def log2Div (num den : Nat) : Int :=
  let guess : Int := (num.log2 : Int) - den.log2
  let (n, d) := scale num den guess
  if n < d then guess - 1 else guess

/-- The binary number nearest to the quotient, unless it is out of range. -/
def nearest? (num den : Nat) : Option Binary :=
  let exponent := max (log2Div num den - 52) minExponent
  let (n, d) := scale num den exponent
  let mantissa := roundDiv n d
  let rounded : Binary :=
    if mantissa = 2 * leastFull then ⟨leastFull, exponent + 1⟩ else ⟨mantissa, exponent⟩
  if rounded.exponent > maxExponent then none else some rounded

/-- The binary number nearest to the size of a decimal number, unless it is out of range. Decimals
that are far out of range are told by their order of magnitude alone. -/
def ofDecimal? (d : Decimal) : Option Binary :=
  let magnitude := d.exponent + Decimal.digitCount d.digits
  if d.isZero ∨ magnitude < -400 then some ⟨0, minExponent⟩
  else if magnitude > 400 then none
  else
    let (num, den) := d.fraction
    nearest? num den

/-- The natural number that the binary number is, unless it has a fraction. -/
def natural? (b : Binary) : Option Nat :=
  if 0 ≤ b.exponent then some (b.mantissa * Nat.pow 2 b.exponent.toNat)
  else
    let unit := Nat.pow 2 (-b.exponent).toNat
    if b.mantissa % unit = 0 then some (b.mantissa / unit) else none

/-- A natural number is found exactly when it is the value of the binary number. The two powers
clear the denominator; one of them is always one. -/
theorem natural?_eq_some_iff {b : Binary} {n : Nat} :
    b.natural? = some n ↔
      n * Nat.pow 2 (-b.exponent).toNat = b.mantissa * Nat.pow 2 b.exponent.toNat := by
  by_cases h : 0 ≤ b.exponent
  · have unit : (-b.exponent).toNat = 0 := by omega
    rw [natural?, if_pos h, unit, Option.some_inj, eq_comm]
    exact Iff.of_eq (congrArg (· = _) (Nat.mul_one n).symm)
  · have whole : b.exponent.toNat = 0 := by omega
    have positive : 0 < Nat.pow 2 (-b.exponent).toNat := Nat.pow_pos (by decide)
    rw [natural?, if_neg h, whole]
    generalize Nat.pow 2 (-b.exponent).toNat = unit at positive
    change (if b.mantissa % unit = 0 then some (b.mantissa / unit) else none) = some n ↔
      n * unit = b.mantissa * 1
    rw [Nat.mul_one]
    constructor
    · intro found
      split at found
      next divides =>
        rw [← Option.some_inj.mp found]
        exact Nat.div_mul_cancel (Nat.dvd_of_mod_eq_zero divides)
      next => cases found
    · intro value
      rw [← value, if_pos (Nat.mul_mod_left n unit), Nat.mul_div_cancel n positive]

end Binary

/-- The whole number that a decimal number is once it is rounded to binary, unless it has a fraction
or is out of range. -/
def Decimal.whole? (d : Decimal) : Option Int :=
  let size? := (Binary.ofDecimal? d).bind Binary.natural?
  size?.map fun size => if d.negative then -(size : Int) else size

end SchemaDiagram
