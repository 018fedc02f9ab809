import Phrasebook.Decimal.Magnitude
import Phrasebook.Toml.Value

/-! # Unquoted values in TOML

The values that are written without quotes: booleans, integers, floats, dates and
times (`Phrasebook.Toml.scalar?`).
-/

namespace Phrasebook.Toml

/-- The digits of a text that may hold single underscores between its digits. -/
def digits? (isDigit : Char → Bool) (text : List Char) : Option (List Char) :=
  let groups := text.splitOn '_'
  if groups.all fun group => !group.isEmpty && group.all isDigit then some groups.flatten
  else none

/-- A number without its sign, and whether the sign is a minus. -/
def splitSign : List Char → Bool × List Char
  | '-' :: text => (true, text)
  | '+' :: text => (false, text)
  | text => (false, text)

/-- Whether decimal digits do not begin with a superfluous zero. -/
def isPlainWhole (digits : List Char) : Bool :=
  digits.head? != some '0' || digits.length == 1

/-- The digits of base two. -/
def isBinaryDigit (c : Char) : Bool :=
  c == '0' || c == '1'

/-- The digits of base eight. -/
def isOctalDigit (c : Char) : Bool :=
  '0' ≤ c && c ≤ '7'

/-- The digits of base sixteen. -/
def isHexDigit (c : Char) : Bool :=
  c.isDigit || ('a' ≤ c && c ≤ 'f') || ('A' ≤ c && c ≤ 'F')

/-- The value of a digit in a base of up to sixteen. -/
def digitValue (c : Char) : Nat :=
  if c.isDigit then c.toNat - '0'.toNat else c.toLower.toNat - 'a'.toNat + 10

/-- The value of digits in a base. -/
def valueIn (base : Nat) (digits : List Char) : Nat :=
  digits.foldl (fun value c => base * value + digitValue c) 0

/-- The value of the digits behind the mark of another base. -/
def markedValue? (base : Nat) (isDigit : Char → Bool) (text : List Char) : Option Nat :=
  (digits? isDigit text).map (valueIn base)

/-- The integer that a text writes. -/
def integer? : List Char → Option Int
  | '0' :: 'x' :: text => (markedValue? 16 isHexDigit text).map Int.ofNat
  | '0' :: 'o' :: text => (markedValue? 8 isOctalDigit text).map Int.ofNat
  | '0' :: 'b' :: text => (markedValue? 2 isBinaryDigit text).map Int.ofNat
  | text => do
    let (negative, body) := splitSign text
    let digits ← digits? Char.isDigit body
    if isPlainWhole digits then
      let value : Int := Text.numeralValue digits
      some (if negative then -value else value)
    else none

/-- Whether an integer fits the bound of a dialect, and 64 bits below zero. -/
def isStorable (dialect : Dialect) (value : Int) : Bool :=
  -(Nat.pow 2 63 : Int) ≤ value && value < dialect.integerBound

/-- The exponent that a text behind its mark writes; leading zeros do not
count. -/
def exponent? (text : List Char) : Option Int := do
  let (negative, body) := splitSign text
  let digits ← digits? Char.isDigit body
  let value : Int := Text.numeralValue digits
  some (if negative then -value else value)

/-- The parts of a float behind its sign: its digits as one number, and the power of
ten to which that number is taken. -/
def float? (text : List Char) : Option (Nat × Int) := do
  let isMark (c : Char) : Bool := c == 'e' || c == 'E'
  let mantissa := text.takeWhile fun c => !isMark c
  let exponent ← match text.dropWhile fun c => !isMark c with
    | [] => some 0
    | _ :: rest => exponent? rest
  let whole ← digits? Char.isDigit (mantissa.takeWhile (· != '.'))
  let fraction ← match mantissa.dropWhile (· != '.') with
    | [] => some []
    | _ :: rest => digits? Char.isDigit rest
  if isPlainWhole whole ∧ text.any (fun c => c == '.' || isMark c) then
    some (Text.numeralValue (whole ++ fraction), exponent - fraction.length)
  else none

/-- Whether a text is a float of double precision, or one of the words for infinity
and no number. -/
def isFloat (dialect : Dialect) (text : List Char) : Bool :=
  let (negative, body) := splitSign text
  body = ['i', 'n', 'f'] || body = ['n', 'a', 'n'] ||
    match float? body with
    | some (coefficient, exponent) =>
      !Decimal.overflows coefficient exponent || (negative && dialect.readsNegativeOverflow)
    | none => false

/-- The value that a text without quotes writes. -/
def scalar? (dialect : Dialect) (text : List Char) : Option Value :=
  if text = ['t', 'r', 'u', 'e'] ∨ text = ['f', 'a', 'l', 's', 'e'] then some .boolean
  else match integer? text with
    | some value => if isStorable dialect value then some .number else none
    | none =>
      if isFloat dialect text then some .number
      else (Moment.read? dialect text).map .moment

end Phrasebook.Toml
