import Phrasebook.Locale.Subtag
import Phrasebook.Ordered

/-! # Locales

A locale is a language with an optional script, an optional region and any
variants (`Phrasebook.Locale`). Its canonical tag joins the subtags with hyphens
(`Phrasebook.Locale.canonical`), and locales are ordered by their canonical tags.
-/

namespace Phrasebook

/-- A locale: what its subtags say. The variants stand in increasing order, each
once. -/
structure Locale where
  language : Subtag .language
  script : Option (Subtag .script)
  region : Option (Subtag .region)
  variants : List (Subtag .variant)
  increasing : Ordered.Increasing Subtag.text variants
deriving DecidableEq

namespace Locale

/-- The texts of the subtags in the order in which a tag lists them. -/
def subtags (locale : Locale) : List String :=
  locale.language.text :: (locale.script.map Subtag.text).toList ++
    (locale.region.map Subtag.text).toList ++ locale.variants.map Subtag.text

/-- The canonical tag: the subtags joined by hyphens. -/
def canonical (locale : Locale) : String :=
  "-".intercalate locale.subtags

instance : LT Locale where
  lt first second := first.canonical < second.canonical

instance : DecidableLT Locale :=
  fun first second => inferInstanceAs (Decidable (first.canonical < second.canonical))

theorem increasing_no_variants : Ordered.Increasing Subtag.text ([] : List (Subtag .variant)) :=
  List.Pairwise.nil

/-- The locale of the English language, with nothing else said. -/
def english : Locale where
  language := ⟨"en", by decide, by decide⟩
  script := none
  region := none
  variants := []
  increasing := increasing_no_variants

end Locale

end Phrasebook
