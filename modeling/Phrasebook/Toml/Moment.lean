import Phrasebook.Text.Numeral
import Phrasebook.Toml.Dialect

/-! # Dates and times in TOML

The written forms of dates, of times and of both together
(`Phrasebook.Toml.Moment.read?`), and the one form in which each of them is printed
(`Phrasebook.Toml.Moment.text`).
-/

namespace Phrasebook.Toml

/-- A day of the calendar. -/
structure Date where
  year : Nat
  month : Nat
  day : Nat
deriving DecidableEq, Repr

/-- A time of the day; a sixtieth second is a leap second. -/
structure Time where
  hour : Nat
  minute : Nat
  second : Nat
  nanosecond : Nat
deriving DecidableEq, Repr

/-- The distance of a local time from universal time. -/
inductive Offset
  | universal
  | minutes (count : Int)
deriving DecidableEq, Repr

/-- A date, a time of the day, or both with an optional offset. -/
inductive Moment
  | date (date : Date)
  | time (time : Time)
  | both (date : Date) (time : Time) (offset : Option Offset)
deriving DecidableEq, Repr

/-- The number that exactly `count` digits at the front of a text write, with the
text behind them. -/
def takeDigits? (count : Nat) (text : List Char) : Option (Nat × List Char) :=
  let digits := text.take count
  if digits.length = count ∧ digits.all Char.isDigit then
    some (Text.numeralValue digits, text.drop count)
  else none

/-- The numeral of a number, with zeros in front up to a width. -/
def padded (width number : Nat) : List Char :=
  let digits := Nat.toDigits 10 number
  List.replicate (width - digits.length) '0' ++ digits

namespace Date

/-- The number of days of a month. -/
def daysOf (year month : Nat) : Nat :=
  if month = 2 then
    if year % 4 = 0 ∧ (year % 100 ≠ 0 ∨ year % 400 = 0) then 29 else 28
  else if month = 4 ∨ month = 6 ∨ month = 9 ∨ month = 11 then 30
  else 31

/-- The date at the front of a text, with the text behind it. -/
def take? (text : List Char) : Option (Date × List Char) := do
  let (year, text) ← takeDigits? 4 text
  let '-' :: text := text | none
  let (month, text) ← takeDigits? 2 text
  let '-' :: text := text | none
  let (day, text) ← takeDigits? 2 text
  if 1 ≤ month ∧ month ≤ 12 ∧ 1 ≤ day ∧ day ≤ daysOf year month then
    some ({ year, month, day }, text)
  else none

/-- The printed form of a date. -/
def text (date : Date) : List Char :=
  padded 4 date.year ++ '-' :: padded 2 date.month ++ '-' :: padded 2 date.day

end Date

namespace Time

/-- The nanoseconds that the digits after a point write; digits beyond the ninth
do not count. -/
def nanoseconds (digits : List Char) : Nat :=
  Text.numeralValue ((digits ++ List.replicate 9 '0').take 9)

/-- The seconds of a time and their fraction, which a colon separates from the minutes.
Where they may be left out, they are zero. -/
def takeSeconds? (mayLack : Bool) (text : List Char) : Option ((Nat × Nat) × List Char) :=
  match text with
  | ':' :: text =>
    match takeDigits? 2 text with
    | none => none
    | some (second, '.' :: rest) =>
      let digits := rest.takeWhile Char.isDigit
      if digits.isEmpty then none
      else some ((second, nanoseconds digits), rest.dropWhile Char.isDigit)
    | some (second, rest) => some ((second, 0), rest)
  | text => if mayLack then some ((0, 0), text) else none

/-- The time at the front of a text, with the text behind it. -/
def take? (mayLackSeconds : Bool) (text : List Char) : Option (Time × List Char) := do
  let (hour, text) ← takeDigits? 2 text
  let ':' :: text := text | none
  let (minute, text) ← takeDigits? 2 text
  let ((second, nanosecond), text) ← takeSeconds? mayLackSeconds text
  if hour ≤ 23 ∧ minute ≤ 59 ∧ second ≤ 60 then
    some ({ hour, minute, second, nanosecond }, text)
  else none

/-- The digits of a fraction without the zeros at its end. -/
def fractionText (nanosecond : Nat) : List Char :=
  ((padded 9 nanosecond).reverse.dropWhile (· == '0')).reverse

/-- The printed form of a time; a fraction is written without the zeros at its end. -/
def text (time : Time) : List Char :=
  padded 2 time.hour ++ ':' :: padded 2 time.minute ++ ':' :: padded 2 time.second ++
    (if time.nanosecond = 0 then [] else '.' :: fractionText time.nanosecond)

end Time

namespace Offset

/-- The offset that a whole text writes. -/
def read? : List Char → Option Offset
  | ['Z'] | ['z'] => some .universal
  | sign :: text => do
    let (hours, text) ← takeDigits? 2 text
    let ':' :: text := text | none
    let (rest, []) ← takeDigits? 2 text | none
    if 23 < hours ∨ 59 < rest then none
    else if sign = '+' then some (.minutes (hours * 60 + rest : Nat))
    else if sign = '-' then some (.minutes (-(hours * 60 + rest : Nat)))
    else none
  | [] => none

/-- The printed form of an offset. -/
def text : Offset → List Char
  | .universal => ['Z']
  | .minutes count =>
    (if count < 0 then '-' else '+') :: padded 2 (count.natAbs / 60) ++
      ':' :: padded 2 (count.natAbs % 60)

end Offset

namespace Moment

/-- The moment that a whole text writes. Between a date and a time stands the
letter T or one space. -/
def read? (dialect : Dialect) (text : List Char) : Option Moment :=
  let time? := Time.take? dialect.isExtended
  match Date.take? text with
  | some (day, []) => some (.date day)
  | some (day, mark :: rest) =>
    if mark == 'T' || mark == 't' || mark == ' ' then
      match time? rest with
      | some (clock, []) => some (.both day clock none)
      | some (clock, offset) => (Offset.read? offset).map fun offset => .both day clock offset
      | none => none
    else none
  | none =>
    match time? text with
    | some (clock, []) => some (.time clock)
    | _ => none

/-- The printed form of a moment, with the letter T between a date and a time. -/
def text : Moment → List Char
  | .date day => day.text
  | .time clock => clock.text
  | .both day clock offset =>
    day.text ++ 'T' :: clock.text ++ (offset.map Offset.text).getD []

end Moment

end Phrasebook.Toml
