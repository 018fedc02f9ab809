/-! # Subtags of a locale tag

A locale tag is written as subtags between hyphens. Each kind of subtag admits
texts of its own form and folds their letters to one case
(`Phrasebook.Subtag.Kind.admits`, `Phrasebook.Subtag.Kind.fold`). A subtag is kept
as its folded text, and a text in any case writes the subtag that its folded text is
(`Phrasebook.Subtag.read?`).
-/

namespace Phrasebook

namespace Subtag

/-- What a subtag says about a locale. -/
inductive Kind
  | language
  | script
  | region
  | variant
deriving DecidableEq, Repr

namespace Kind

/-- The characters that a four-character variant may hold anywhere: ASCII without
NUL and without the hyphen, which stands between subtags. -/
def isPlain (c : Char) : Bool :=
  0 < c.toNat && c.toNat < 128 && c.toNat != 45

/-- The form of each kind of subtag. A language has two, three or five to eight
letters, a script four letters, a region two letters or three digits. A variant
has five to eight letters and digits, or four characters that begin with a digit
or end in three letters and digits. -/
def admits (kind : Kind) (text : List Char) : Bool :=
  match kind with
  | .language =>
    text.all Char.isAlpha &&
      (text.length == 2 || text.length == 3 || (5 ≤ text.length && text.length ≤ 8))
  | .script => text.all Char.isAlpha && text.length == 4
  | .region =>
    (text.all Char.isAlpha && text.length == 2) || (text.all Char.isDigit && text.length == 3)
  | .variant =>
    (text.all Char.isAlphanum && 5 ≤ text.length && text.length ≤ 8) ||
      (text.all isPlain && text.length == 4 &&
        ((text.take 1).all Char.isDigit || (text.drop 1).all Char.isAlphanum))

/-- The case in which each kind of subtag is kept: scripts with a capital first
letter, regions in upper case, languages and variants in lower case. -/
def fold (kind : Kind) (text : List Char) : List Char :=
  match kind with
  | .language | .variant => text.map Char.toLower
  | .region => text.map Char.toUpper
  | .script => (text.take 1).map Char.toUpper ++ (text.drop 1).map Char.toLower

end Kind

end Subtag

/-- A subtag of one kind, in the form and in the case of its kind. -/
structure Subtag (kind : Subtag.Kind) where
  /-- The subtag as it is written. -/
  text : String
  admitted : kind.admits text.toList = true
  folded : kind.fold text.toList = text.toList
deriving DecidableEq

namespace Subtag

/-- The subtag with a text, if the text has the form and the case of the kind. -/
def ofText? (kind : Kind) (text : List Char) : Option (Subtag kind) :=
  if written : kind.admits text = true ∧ kind.fold text = text then
    some {
      text := String.ofList text
      admitted := by rw [String.toList_ofList]; exact written.1
      folded := by rw [String.toList_ofList]; exact written.2 }
  else none

/-- The subtag that a text in any case writes. -/
def read? (kind : Kind) (text : List Char) : Option (Subtag kind) :=
  ofText? kind (kind.fold text)

/-- Takes the first text of a list when it is a subtag of the kind. -/
def takeFirst (kind : Kind) : List (List Char) → Option (Subtag kind) × List (List Char)
  | [] => (none, [])
  | first :: rest =>
    match read? kind first with
    | some subtag => (some subtag, rest)
    | none => (none, first :: rest)

/-- All texts of a list as subtags of the kind. -/
def readAll? (kind : Kind) (texts : List (List Char)) : Option (List (Subtag kind)) :=
  texts.mapM (read? kind)

end Subtag

end Phrasebook
