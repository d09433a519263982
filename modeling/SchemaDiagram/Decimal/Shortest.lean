import SchemaDiagram.Decimal.Binary

/-!
# The shortest decimal text of a binary number

A binary number is written with the fewest decimal digits that still round to it. For one digit,
then two, and so on, the two multiples of the power of ten that enclose the number are tried; the
first count of digits for which one of them rounds to the number wins, and if both do the nearer
is taken, or the even one of two that are equally near. Seventeen digits always suffice.

The digits are written out in full as long as the decimal point lies within them or near them, and
with an exponent otherwise.
-/

namespace SchemaDiagram
namespace Binary

/-- The decimals that round to a binary number, in quarters of its last place: the number itself,
the lower end, the upper end, and whether the ends belong to them. -/
structure Interval where
  value : Nat
  lower : Nat
  upper : Nat
  closed : Bool

/-- The interval of a number. Below a power of two the binary numbers lie closer, so there the lower
end is nearer. -/
def interval (b : Binary) : Interval :=
  let narrow := b.mantissa = leastFull ∧ b.exponent > minExponent
  { value := 4 * b.mantissa
    lower := 4 * b.mantissa - (if narrow then 1 else 2)
    upper := 4 * b.mantissa + 2
    closed := b.mantissa % 2 == 0 }

/-- A decimal number without a sign, `digits · 10 ^ exponent`. -/
structure Digits where
  digits : Nat
  exponent : Int

/-- Compares, for one power of ten, the multiples that enclose the number, and gives the one to
write if one of them rounds to the number. -/
def tryGrid (b : Binary) (exponent : Int) : Option Digits :=
  let i := b.interval
  -- In quarters of the last place, the grid is `num / den` wide.
  let (num, den) := scale (if 0 ≤ exponent then Nat.pow 10 exponent.toNat else 1)
    (if 0 ≤ exponent then 1 else Nat.pow 10 (-exponent).toNat) (b.exponent - 2)
  let below := i.value * den / num
  let isHit (k : Nat) : Bool :=
    if i.closed then i.lower * den ≤ k * num && k * num ≤ i.upper * den
    else i.lower * den < k * num && k * num < i.upper * den
  let down := i.value * den - below * num
  let up := (below + 1) * num - i.value * den
  match isHit below, isHit (below + 1) with
  | true, true =>
    if down < up ∨ (down = up ∧ below % 2 = 0) then some ⟨below, exponent⟩
    else some ⟨below + 1, exponent⟩
  | true, false => some ⟨below, exponent⟩
  | false, true => some ⟨below + 1, exponent⟩
  | false, false => none

/-- The number of digits of the number in front of the decimal point, or minus the number of zeros
behind it, so that the number lies between two powers of ten. -/
def pointPosition (b : Binary) : Int :=
  let (num, den) : Nat × Nat :=
    if 0 ≤ b.exponent then (b.mantissa * Nat.pow 2 b.exponent.toNat, 1)
    else (b.mantissa, Nat.pow 2 (-b.exponent).toNat)
  if den ≤ num then Decimal.digitCount (num / den)
  else 1 - Decimal.digitCount ((den + num - 1) / num - 1)

/-- The shortest decimal that rounds to the number, tried from the given count of digits on. -/
def shortestFrom (b : Binary) (point : Int) (count : Nat) : Nat → Digits
  | 0 => ⟨b.mantissa, 0⟩
  | fuel + 1 => match b.tryGrid (point - count) with
    | some d => d
    | none => shortestFrom b point (count + 1) fuel

/-- The shortest decimal that rounds to the number. -/
def shortest (b : Binary) : Digits :=
  b.shortestFrom b.pointPosition 1 17

/-! ## Writing the digits -/

/-- The exponent of a power of ten: a sign and at least two digits. -/
def exponentText (e : Int) : List Char :=
  let digits := Nat.toDigits 10 e.natAbs
  (if e < 0 then '-' else '+') :: (if digits.length < 2 then '0' :: digits else digits)

/-- Writes significant digits with the decimal point after the given number of them. -/
def pointText (digits : List Char) (point : Int) : List Char :=
  if point > 16 ∨ point ≤ -4 then
    match digits with
    | [] => []
    | [d] => d :: 'e' :: exponentText (point - 1)
    | d :: ds => d :: '.' :: (ds ++ 'e' :: exponentText (point - 1))
  else if point ≤ 0 then
    '0' :: '.' :: (List.replicate (-point).toNat '0' ++ digits)
  else
    let whole := point.toNat
    if digits.length ≤ whole then
      digits ++ List.replicate (whole - digits.length) '0' ++ ['.', '0']
    else
      digits.take whole ++ '.' :: digits.drop whole

/-- The text of a number without a sign. -/
def text (b : Binary) : List Char :=
  if b.mantissa = 0 then ['0', '.', '0']
  else
    let d := b.shortest
    let all := Nat.toDigits 10 d.digits
    let significant := (all.reverse.dropWhile (· == '0')).reverse
    pointText significant (d.exponent + all.length)

end Binary

/-- The text of a decimal number once it is rounded to binary. -/
def Decimal.text (d : Decimal) : List Char :=
  let size := match Binary.ofDecimal? d with
    | some b => b.text
    | none => ['i', 'n', 'f']
  if d.negative then '-' :: size else size

end SchemaDiagram
