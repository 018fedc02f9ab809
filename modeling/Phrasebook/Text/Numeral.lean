/-! # Numerals and positions

A numeral is a non-empty run of the digits `0` to `9`. A position is a number
below `2 ^ 64`; a numeral of a larger value names none
(`Phrasebook.Position.ofNumeral?`).
-/

namespace Phrasebook

namespace Text

/-- Whether a text is a numeral: digits only, and at least one. -/
def isNumeral (text : List Char) : Bool :=
  !text.isEmpty && text.all Char.isDigit

/-- The number that a numeral writes; leading zeros do not count. -/
def numeralValue (text : List Char) : Nat :=
  Nat.ofDigitChars 10 text 0

/-- The value of a hexadecimal digit. -/
def hexValue? (c : Char) : Option Nat :=
  if c.isDigit then some (c.toNat - '0'.toNat)
  else if 'a' ≤ c ∧ c ≤ 'f' then some (c.toNat - 'a'.toNat + 10)
  else if 'A' ≤ c ∧ c ≤ 'F' then some (c.toNat - 'A'.toNat + 10)
  else none

end Text

/-- A place in a list or an indexed map: a number below `2 ^ 64`. -/
abbrev Position := UInt64

namespace Position

/-- The position that a numeral names, unless its value is `2 ^ 64` or more. -/
def ofNumeral? (text : List Char) : Option Position :=
  if Text.isNumeral text && Text.numeralValue text < UInt64.size then
    some (UInt64.ofNat (Text.numeralValue text))
  else none

/-- The numeral of a position, without leading zeros. -/
def numeral (position : Position) : String :=
  String.ofList (Nat.toDigits 10 position.toNat)

end Position

end Phrasebook
