import Phrasebook.Session.Step
import Phrasebook.Text.Quoted

/-! # Descriptions

One-line descriptions of plans and translators for the log of a developer.
-/

namespace Phrasebook

/-- The description of a locale. -/
def Locale.description (locale : Locale) : String :=
  "LocaleTag(" ++ Text.quoted locale.canonical ++ ")"

/-- The description of a locale that may be absent. -/
def Locale.optionDescription : Option Locale → String
  | none => "None"
  | some locale => "Some(" ++ locale.description ++ ")"

/-- The description of a way of escaping. -/
def Escaping.description : Escaping → String
  | .markup => "Markup"
  | .verbatim => "Verbatim"

namespace Session

/-- The fields of a description between braces. -/
def describe (name : String) (fields : List String) : String :=
  name ++ " \x7b " ++ ", ".intercalate fields ++ " \x7d"

/-- The description of a plan. -/
def Plan.description (plan : Plan) : String :=
  describe "TranslatorBuilder"
    ["catalogs: " ++ toString plan.catalogues.length,
      "default_locale: " ++ Locale.optionDescription plan.fallback,
      "active_locale: " ++ Locale.optionDescription plan.active,
      "escaping: " ++ plan.escaping.description,
      "report_issue: \"<reporter>\"",
      ".."]

/-- The description of a translator with the given number of observers. -/
def describeTranslator (translator : Translator) (observers : Nat) : String :=
  describe "Translator"
    ["controller: " ++ describe "LocaleController"
      ["active: " ++ Locale.optionDescription translator.active,
        "observers: " ++ toString observers,
        ".."],
      "escaping: " ++ translator.escaping.description,
      "report_issue: \"<reporter>\""]

end Session

end Phrasebook
