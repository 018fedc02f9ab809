import Phrasebook.Locale.Basic
import Phrasebook.Text.Blank

/-! # Reading locales

A locale is read from text in any case, with hyphens or underscores between the
subtags, with white space around it, and with an encoding or a modifier behind a
dot or an at sign (`Phrasebook.Locale.read`). The subtags come in a fixed order:
the language, then at most one script, at most one region, and only variants after
them (`Phrasebook.Locale.ofSubtags`).
-/

namespace Phrasebook.Locale

/-- Why a text is no locale. -/
inductive Fault
  | empty
  | language
  | subtag
deriving DecidableEq, Repr

/-- The wording of a fault. -/
def Fault.message : Fault → String
  | .empty => "locale tag is empty"
  | .language => "Parser error: The given language subtag is invalid"
  | .subtag => "Parser error: Invalid subtag"

theorem increasing_insert_variant {variants : List (Subtag .variant)} (variant : Subtag .variant)
    (increasing : Ordered.Increasing Subtag.text variants) :
    Ordered.Increasing Subtag.text (Ordered.insert Subtag.text variant variants) :=
  Ordered.increasing_insert increasing

/-- The variants of a list in increasing order, each once. -/
def sortedVariants (variants : List (Subtag .variant)) :
    { sorted : List (Subtag .variant) // Ordered.Increasing Subtag.text sorted } :=
  variants.foldl
    (fun sorted variant =>
      ⟨Ordered.insert Subtag.text variant sorted.1, increasing_insert_variant variant sorted.2⟩)
    ⟨[], increasing_no_variants⟩

/-- The locale that a list of subtags writes. -/
def ofSubtags (texts : List (List Char)) : Except Fault Locale :=
  match Subtag.takeFirst .language texts with
  | (none, _) => .error .language
  | (some language, texts) =>
    let (script, texts) := Subtag.takeFirst .script texts
    let (region, texts) := Subtag.takeFirst .region texts
    match Subtag.readAll? .variant texts with
    | none => .error .subtag
    | some variants =>
      let sorted := sortedVariants variants
      .ok { language, script, region, variants := sorted.1, increasing := sorted.2 }

/-- The part of a text that writes the subtags: what precedes the first dot or at
sign, without the white space at either end, with hyphens for underscores. -/
def tagPart (text : List Char) : List Char :=
  (Text.trim ((Text.trim text).takeWhile fun c => c != '.' && c != '@')).map
    fun c => if c = '_' then '-' else c

/-- The locale that a text writes. -/
def read (raw : String) : Except Fault Locale :=
  match tagPart raw.toList with
  | [] => .error .empty
  | tag => ofSubtags (tag.splitOn '-')

end Phrasebook.Locale
