/-! # Shortest decimals

A floating-point number stands for every real that rounds to it. Its shortest
decimal is the multiple of the largest power of ten among those reals
(`Phrasebook.Decimal.Rounding.shortest`); of two such multiples it is the nearer
one, and the larger one when both are equally near.
-/

namespace Phrasebook.Decimal

/-- The reals that round to one positive number. The three bounds are counted in
units of `2 ^ exponent`, and `closed` says whether the outer two round to the
number as well. -/
structure Rounding where
  low : Nat
  value : Nat
  high : Nat
  closed : Bool
  exponent : Int

/-- The decimal `coefficient * 10 ^ exponent`. -/
structure Scaled where
  coefficient : Nat
  exponent : Int
deriving DecidableEq, Repr

namespace Rounding

/-- How many of the finer of the two grids `2 ^ exponent` and `10 ^ power` one
unit of the bounds takes. -/
def unit (rounding : Rounding) (power : Int) : Nat :=
  Nat.pow 2 rounding.exponent.toNat * Nat.pow 10 (-power).toNat

/-- How many of the finer of the two grids one step of `10 ^ power` takes. -/
def stride (rounding : Rounding) (power : Int) : Nat :=
  Nat.pow 10 power.toNat * Nat.pow 2 (-rounding.exponent).toNat

/-- Whether `coefficient * 10 ^ power` rounds to the number. -/
def covers (rounding : Rounding) (power : Int) (coefficient : Nat) : Bool :=
  let low := rounding.low * rounding.unit power
  let high := rounding.high * rounding.unit power
  let point := coefficient * rounding.stride power
  if rounding.closed then low ≤ point && point ≤ high else low < point && point < high

/-- The multiple of `10 ^ power` that is nearest to the number, if it rounds to
the number; the larger of two that are equally near. -/
def nearest? (rounding : Rounding) (power : Int) : Option Nat :=
  let value := rounding.value * rounding.unit power
  let stride := rounding.stride power
  let below := value / stride
  let above := below + 1
  match rounding.covers power below, rounding.covers power above with
  | true, true => some (if value - below * stride < above * stride - value then below else above)
  | true, false => some below
  | false, true => some above
  | false, false => none

/-- The first hit on the grids of the powers of ten from `power` downwards. -/
def search (rounding : Rounding) (power : Int) : Nat → Scaled
  | 0 => ⟨0, 0⟩
  | steps + 1 =>
    match rounding.nearest? power with
    | some coefficient => ⟨coefficient, power⟩
    | none => rounding.search (power - 1) steps

/-- The shortest decimal of a number between `2 ^ (-1074)` and `10 ^ 309`. -/
def shortest (rounding : Rounding) : Scaled :=
  rounding.search 309 640

end Rounding

/-- A decimal in positional digits, without an exponent and without a fraction
when it is whole. -/
def Scaled.positional (decimal : Scaled) : List Char :=
  let digits := Nat.toDigits 10 decimal.coefficient
  if 0 ≤ decimal.exponent then digits ++ List.replicate decimal.exponent.toNat '0'
  else
    let places := (-decimal.exponent).toNat
    let padded := List.replicate (places + 1 - digits.length) '0' ++ digits
    padded.take (padded.length - places) ++ '.' :: padded.drop (padded.length - places)

end Phrasebook.Decimal
