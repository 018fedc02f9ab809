import Phrasebook.Decimal.Magnitude
import Phrasebook.Text.Numeral

/-! # Numbers in JSON

The grammar of JSON numbers (`Phrasebook.Json.Number.read?`), and which of them
double precision holds (`Phrasebook.Json.isNumber`).
-/

namespace Phrasebook.Json

/-- A number as it is written, without its sign: the digits before and after the
point and the exponent. -/
structure Number where
  whole : List Char
  fraction : List Char
  exponent : Int
deriving DecidableEq, Repr

namespace Number

/-- The exponent that a text writes; no text stands for zero. -/
def readExponent? : List Char → Option Int
  | [] => some 0
  | mark :: rest =>
    if mark == 'e' || mark == 'E' then
      match rest with
      | '-' :: digits => if Text.isNumeral digits then some (-Text.numeralValue digits) else none
      | '+' :: digits => if Text.isNumeral digits then some (Text.numeralValue digits) else none
      | digits => if Text.isNumeral digits then some (Text.numeralValue digits) else none
    else none

/-- The digits after a point and the exponent behind them. -/
def readFraction? : List Char → Option (List Char × Int)
  | '.' :: rest =>
    let digits := rest.takeWhile Char.isDigit
    if digits.isEmpty then none
    else (readExponent? (rest.dropWhile Char.isDigit)).map (digits, ·)
  | rest => (readExponent? rest).map ([], ·)

/-- The number that a text without a sign writes. A whole part of several digits
does not begin with zero. -/
def readUnsigned? (text : List Char) : Option Number :=
  let whole := text.takeWhile Char.isDigit
  if whole.isEmpty || (whole.head? == some '0' && 1 < whole.length) then none
  else (readFraction? (text.dropWhile Char.isDigit)).map fun (fraction, exponent) =>
    { whole, fraction, exponent }

/-- The number that a text writes, after its sign. -/
def read? : List Char → Option Number
  | '-' :: text => readUnsigned? text
  | text => readUnsigned? text

/-- Reads digits behind a number that others write, as long as it fits 64 bits; the
answer is the number and the digits that are left. -/
def gather (number : Nat) : List Char → Nat × List Char
  | [] => (number, [])
  | digit :: rest =>
    let longer := 10 * number + (digit.toNat - '0'.toNat)
    if longer < UInt64.size then gather longer rest else (number, digit :: rest)

/-- The significand of 64 bits and the power of ten as which a number is kept. Digits
for which the significand has no room do not count: those before the point raise the
power, and those after it are as if they were not written. -/
def scaled (number : Number) : Nat × Int :=
  let (whole, beyond) := gather 0 number.whole
  let (significand, unread) := gather whole number.fraction
  (significand,
    number.exponent + beyond.length - (number.fraction.length - unread.length : Nat))

/-- Whether the number is too large for double precision. -/
def overflows (number : Number) : Bool :=
  let (significand, exponent) := number.scaled
  Decimal.productOverflows significand exponent

end Number

/-- Whether a text is a number that double precision holds. -/
def isNumber (text : List Char) : Bool :=
  match Number.read? text with
  | some number => !number.overflows
  | none => false

end Phrasebook.Json
