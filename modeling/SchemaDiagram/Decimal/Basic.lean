/-!
# Decimal numbers

A number with a fraction or an exponent, exactly as it was written: a sign, the digits as one
natural number, and the power of ten they are multiplied by. Nothing is rounded here, and a zero
keeps its sign.
-/

namespace SchemaDiagram

/-- The number `± digits · 10 ^ exponent`. -/
structure Decimal where
  negative : Bool
  digits : Nat
  exponent : Int
  deriving DecidableEq, Repr, Inhabited

namespace Decimal

/-- Whether the number is zero, of either sign. -/
def isZero (d : Decimal) : Bool :=
  d.digits == 0

/-- How many decimal digits a natural number has; zero has one. -/
def digitCount (n : Nat) : Nat :=
  (Nat.toDigits 10 n).length

/-- The size of the number as a fraction of two natural numbers, the second of which is not zero. -/
def fraction (d : Decimal) : Nat × Nat :=
  if 0 ≤ d.exponent then (d.digits * Nat.pow 10 d.exponent.toNat, 1)
  else (d.digits, Nat.pow 10 (-d.exponent).toNat)

end Decimal
end SchemaDiagram
