import Phrasebook.Decimal.Shortest

/-! # Double-precision numbers as text

A double-precision number is kept as the 64 bits of its binary form
(`Phrasebook.Decimal.Double`) and is written with the fewest digits that read back
as the same number (`Phrasebook.Decimal.Double.text`).
-/

namespace Phrasebook.Decimal

/-- A number in the 64-bit binary interchange format: one bit of sign, eleven of
exponent and fifty-two of fraction. -/
structure Double where
  bits : UInt64
deriving DecidableEq, Repr

namespace Double

/-- How many fractions there are. -/
def fractions : Nat := Nat.pow 2 52

/-- The biased exponent of infinities and NaNs. -/
def greatestExponent : Nat := 2047

/-- Whether the sign bit is set. -/
def isNegative (number : Double) : Bool :=
  greatestExponent < number.bits.toNat / fractions

/-- The eleven bits of the exponent. -/
def biasedExponent (number : Double) : Nat :=
  number.bits.toNat / fractions % (greatestExponent + 1)

/-- The fifty-two bits of the fraction. -/
def fraction (number : Double) : Nat :=
  number.bits.toNat % fractions

/-- The significand of a finite number, with the leading bit that normal numbers
leave out. -/
def significand (number : Double) : Nat :=
  if number.biasedExponent = 0 then number.fraction else fractions + number.fraction

/-- The reals that round to a finite number other than zero, in quarters of its
last place. Below a power of two the neighbours are twice as close. -/
def rounding (number : Double) : Rounding where
  low :=
    if number.fraction = 0 ∧ 1 < number.biasedExponent then 4 * number.significand - 1
    else 4 * number.significand - 2
  value := 4 * number.significand
  high := 4 * number.significand + 2
  closed := number.significand % 2 == 0
  exponent := (max number.biasedExponent 1 : Int) - 1077

/-- The text of the magnitude of a number that is not a NaN. -/
def magnitude (number : Double) : List Char :=
  if number.biasedExponent = greatestExponent then ['i', 'n', 'f']
  else if number.significand = 0 then ['0']
  else number.rounding.shortest.positional

/-- The text of a number: always positional, with the sign of a negative zero and
without a sign on a NaN. -/
def text (number : Double) : String :=
  if number.biasedExponent = greatestExponent ∧ number.fraction ≠ 0 then "NaN"
  else String.ofList ((if number.isNegative then ['-'] else []) ++ number.magnitude)

end Double

end Phrasebook.Decimal
