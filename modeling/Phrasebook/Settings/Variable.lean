import Phrasebook.Document.Basic
import Phrasebook.Text.Blank
import Phrasebook.Text.Numeral

/-! # Variables of the environment

The name of a variable says which field it sets
(`Phrasebook.Settings.fieldPath?`), and its text may write a value of another kind
(`Phrasebook.Settings.variableValue`): truth values, numbers, texts between double
quotes, characters between single ones, arrays between brackets and mappings between
braces. Text that writes none of them as a whole stands for itself.
-/

namespace Phrasebook.Settings

/-- White space in ASCII. -/
def isSpace (c : Char) : Bool :=
  c == ' ' || c == '\t' || c == '\n' || c == '\r' || c == '\x0c'

/-- The characters that end an unquoted value. -/
def isSeparator (c : Char) : Bool :=
  c == ',' || c == '[' || c == ']' || c == '\x7b' || c == '\x7d'

/-- The characters of unquoted keys. -/
def isKeyChar (c : Char) : Bool :=
  c.isAlphanum || c == '_' || c == '-'

/-- The code point that hexadecimal digits write. -/
def codePoint? (digits : List Char) : Option Char := do
  let values ← digits.mapM Text.hexValue?
  let code := values.foldl (fun code value => code * 16 + value) 0
  if code.isValidChar then some (Char.ofNat code) else none

/-- The text up to the next double quote that does not stand behind a backslash, and
what stands behind that quote. -/
def enclosed? : List Char → Option (List Char × List Char)
  | [] => none
  | '"' :: rest => some ([], rest)
  | '\\' :: c :: rest => (enclosed? rest).map fun (text, rest) => ('\\' :: c :: text, rest)
  | c :: rest => (enclosed? rest).map fun (text, rest) => (c :: text, rest)

/-- A text with its escapes replaced. -/
def unescape? : List Char → Option (List Char)
  | [] => some []
  | '\\' :: '"' :: rest => (unescape? rest).map ('"' :: ·)
  | '\\' :: '\\' :: rest => (unescape? rest).map ('\\' :: ·)
  | '\\' :: 'b' :: rest => (unescape? rest).map ('\x08' :: ·)
  | '\\' :: 'f' :: rest => (unescape? rest).map ('\x0c' :: ·)
  | '\\' :: 'n' :: rest => (unescape? rest).map ('\n' :: ·)
  | '\\' :: 'r' :: rest => (unescape? rest).map ('\r' :: ·)
  | '\\' :: 't' :: rest => (unescape? rest).map ('\t' :: ·)
  | '\\' :: 'u' :: a :: b :: c :: d :: rest => do
    let letter ← codePoint? [a, b, c, d]
    (unescape? rest).map (letter :: ·)
  | '\\' :: 'U' :: a :: b :: c :: d :: e :: f :: g :: h :: rest => do
    let letter ← codePoint? [a, b, c, d, e, f, g, h]
    (unescape? rest).map (letter :: ·)
  | '\\' :: _ => none
  | c :: rest =>
    if c == '\t' || (0x20 ≤ c.toNat && c.toNat != 0x7F) then (unescape? rest).map (c :: ·)
    else none

/-- The characters at the front of a text that fit a number of bytes. -/
def takeBytes : Nat → List Char → List Char
  | _, [] => []
  | room, c :: rest => if c.utf8Size ≤ room then c :: takeBytes (room - c.utf8Size) rest else []

/-- What a text between double quotes says. Of the text before its first escape as
many bytes count as that text has characters. -/
def unquote? (text : List Char) : Option (List Char) := do
  let before ← unescape? (text.takeWhile (· != '\\'))
  match text.dropWhile (· != '\\') with
  | [] => some before
  | behind => (unescape? behind).map (takeBytes before.length before ++ ·)

/-- The text between double quotes whose first quote has been read, and what stands
behind the second quote. -/
def quoted? (text : List Char) : Option (List Char × List Char) := do
  let (inner, rest) ← enclosed? text
  (unquote? inner).map (·, rest)

/-- The integers of 64 bits, with or without a sign. -/
def isInteger (text : List Char) : Bool :=
  match text with
  | '-' :: digits => Text.isNumeral digits && Text.numeralValue digits ≤ Nat.pow 2 63
  | '+' :: digits => Text.isNumeral digits && Text.numeralValue digits < UInt64.size
  | digits => Text.isNumeral digits && Text.numeralValue digits < UInt64.size

/-- Whether a text behind a mantissa is an exponent. -/
def isExponent (text : List Char) : Bool :=
  match text with
  | [] => true
  | mark :: '-' :: digits | mark :: '+' :: digits =>
    (mark == 'e' || mark == 'E') && Text.isNumeral digits
  | mark :: digits => (mark == 'e' || mark == 'E') && Text.isNumeral digits

/-- Whether a text is a decimal fraction: digits before or after a point. -/
def isFraction (text : List Char) : Bool :=
  let body := match text with
    | '-' :: rest | '+' :: rest => rest
    | rest => rest
  let whole := body.takeWhile Char.isDigit
  match body.dropWhile Char.isDigit with
  | '.' :: rest =>
    (!whole.isEmpty || !(rest.takeWhile Char.isDigit).isEmpty) &&
      isExponent (rest.dropWhile Char.isDigit)
  | _ => false

/-- The value of a text without quotes, brackets and braces. -/
def plain (text : List Char) : Document :=
  if isFraction text || isInteger text then .literal .number else .text (String.ofList text)

/-- The text behind a word, if it stands at the front. -/
def behind? (word text : List Char) : Option (List Char) :=
  if word.isPrefixOf text then some (text.drop word.length) else none

/-- A key at the front of a text, and what stands behind it. -/
def key? (text : List Char) : Option (String × List Char) :=
  match text with
  | '"' :: rest => (quoted? rest).map fun (key, rest) => (String.ofList key, rest)
  | text =>
    let key := text.takeWhile isKeyChar
    if key.isEmpty then none else some (String.ofList key, text.dropWhile isKeyChar)

mutual

/-- The value at the front of a text, and what stands behind it. Values nest no
deeper than `fuel`. -/
def value? (fuel : Nat) (text : List Char) : Option (Document × List Char) :=
  match fuel with
  | 0 => none
  | fuel + 1 => do
    let text := text.dropWhile isSpace
    let (value, rest) ←
      match behind? ['t', 'r', 'u', 'e'] text, behind? ['f', 'a', 'l', 's', 'e'] text, text with
      | some rest, _, _ | _, some rest, _ => some (.literal .boolean, rest)
      | _, _, '\x7b' :: rest => (members? fuel [] rest).map fun (members, rest) =>
        (Document.mapping members, rest)
      | _, _, '[' :: rest => (items? fuel [] rest).map fun (items, rest) =>
        (Document.sequence items, rest)
      | _, _, '"' :: rest => (quoted? rest).map fun (letters, rest) =>
        (Document.text (String.ofList letters), rest)
      | _, _, '\'' :: letter :: '\'' :: rest => some (.text (String.ofList [letter]), rest)
      | _, _, '\'' :: _ => none
      | _, _, text =>
        some (plain (Text.trim (text.takeWhile fun c => !isSeparator c)),
          text.dropWhile fun c => !isSeparator c)
    some (value, rest.dropWhile isSpace)

/-- The items up to a closing bracket, behind the earlier ones. -/
def items? (fuel : Nat) (earlier : List Document) (text : List Char) :
    Option (List Document × List Char) :=
  match fuel, text with
  | _, ']' :: rest => some (earlier, rest)
  | 0, _ => none
  | fuel + 1, text => do
    let (item, rest) ← value? fuel text
    match rest with
    | ',' :: rest => items? fuel (earlier ++ [item]) rest
    | ']' :: rest => some (earlier ++ [item], rest)
    | _ => none

/-- The members up to a closing brace, behind the earlier ones. -/
def members? (fuel : Nat) (earlier : List (String × Document)) (text : List Char) :
    Option (List (String × Document) × List Char) :=
  match fuel, text with
  | _, '\x7d' :: rest => some (earlier, rest)
  | 0, _ => none
  | fuel + 1, text => do
    let (key, rest) ← key? (text.dropWhile isSpace)
    let '=' :: rest := rest.dropWhile isSpace | none
    let (value, rest) ← value? fuel rest
    match rest with
    | ',' :: rest => members? fuel (earlier ++ [(key, value)]) rest
    | '\x7d' :: rest => some (earlier ++ [(key, value)], rest)
    | _ => none

end

/-- The value that the text of a variable writes. -/
def variableValue (text : String) : Document :=
  match value? (text.length + 1) text.toList with
  | some (value, []) => value
  | _ => .text text

/-- What the names of the variables of the environment begin with, in any case. -/
def variableStart : String := "LOCALE_CATALOG_"

/-- The field that a variable sets: its name, and behind dots the names of members
inside it. White space around the name of the variable and behind its start does not
count; a variable with an empty name among these sets none. -/
def fieldPath? (name : String) : Option (List String) :=
  let folded := (Text.trim name.toList).map Char.toLower
  let start := variableStart.toList.map Char.toLower
  if start.isPrefixOf folded then
    let names := (Text.trim (folded.drop start.length)).splitOn '.'
    if names.any List.isEmpty then none else some (names.map String.ofList)
  else none

/-- A value inside mappings of one member each. -/
def nested (value : Document) : List String → Document
  | [] => value
  | name :: path => .mapping [(name, nested value path)]

/-- The field that a variable sets, with its value. -/
def variableField? (name value : String) : Option (String × Document) :=
  match fieldPath? name with
  | some (field :: path) => some (field, nested (variableValue value) path)
  | _ => none

/-- The fields that the environment sets; of two variables for one field the later
one counts. -/
def environmentFields (environment : List (String × String)) : List (String × Document) :=
  (environment.filterMap fun (name, value) => variableField? name value).reverse

end Phrasebook.Settings
