/-! # Magnitudes beyond double precision

Which decimals are too large for a double-precision number: by their exact value
(`Phrasebook.Decimal.overflows`), or when the significand and the power of ten are
each rounded before they are multiplied (`Phrasebook.Decimal.productOverflows`).
-/

namespace Phrasebook.Decimal

/-- The least real that rounds to infinity in double precision: half a unit of the
last place above the largest finite number. -/
def overflowBound : Nat :=
  Nat.pow 2 1024 - Nat.pow 2 970

/-- Whether `coefficient * 10 ^ exponent` rounds to infinity. The number of digits
decides for all but the numbers of 309 and 310 digits before the point. -/
def overflows (coefficient : Nat) (exponent : Int) : Bool :=
  let digits : Int := (Nat.toDigits 10 coefficient).length
  if coefficient = 0 then false
  else if 310 < digits + exponent then true
  else if digits + exponent < 309 then false
  else overflowBound * Nat.pow 10 (-exponent).toNat ≤ coefficient * Nat.pow 10 exponent.toNat

/-- The number of bits of a significand in double precision. -/
def precision : Nat := 53

/-- The multiple of `unit` that is nearest to a number; of two that are equally near,
the even one. -/
def nearestMultiple (unit number : Nat) : Nat :=
  let below := number / unit
  let rest := 2 * (number % unit)
  if rest < unit ∨ (rest = unit ∧ below % 2 = 0) then below * unit else (below + 1) * unit

/-- The number of double precision that is nearest to a whole number, with exponents
of any size. -/
def nearestWhole (number : Nat) : Nat :=
  nearestMultiple (Nat.pow 2 (number.log2 + 1 - precision)) number

/-- The greatest power of ten that double precision holds. -/
def greatestPower : Nat := 308

/-- Whether the product of a significand and a power of ten rounds to infinity, when
both are rounded to double precision first. -/
def productOverflows (significand : Nat) (exponent : Int) : Bool :=
  if significand = 0 ∨ exponent < 0 then false
  else if greatestPower < exponent then true
  else overflowBound ≤ nearestWhole significand * nearestWhole (Nat.pow 10 exponent.toNat)

end Phrasebook.Decimal
