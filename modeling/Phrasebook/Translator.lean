import Phrasebook.Registry.Basic
import Phrasebook.Template.Rendering

/-! # Translators

A translator renders the entries of a registry for the locale that is active, or
for one that the host names (`Phrasebook.Translator`). Before any activation the
fallback locale is the current one (`Phrasebook.Translator.current`). A localizer
is the narrow view of it that always has some text to show
(`Phrasebook.Localizer`).
-/

namespace Phrasebook

/-- What rendering depends on: the registered catalogues, the explicitly activated
locale, and how untrusted values are written. -/
structure Translator where
  registry : Registry
  active : Option Locale
  escaping : Escaping

/-- The rendered form of an entry, which keeps its shape. -/
inductive Rendered
  | scalar (text : String)
  | list (texts : List String)
  | indexed (entries : List (IndexedMap.Key × String))
deriving DecidableEq

namespace Translator

/-- The locale of look-ups that name none. -/
def current (translator : Translator) : Except Error Locale :=
  match translator.active, translator.registry.fallback with
  | some locale, _ => .ok locale
  | none, some locale => .ok locale
  | none, none => .error .notInitialized

/-- The address that a path writes and what it leads to, for the current locale
unless one is named. The path is read before the locale is looked at. -/
def find (translator : Translator) (locale : Option Locale) (path : String)
    (index : Option Position) : Except Error (Address × Finding) := do
  let address ← Address.parse path
  let wanted ← match locale with
    | some locale => pure locale
    | none => translator.current
  let finding ← translator.registry.find wanted address index
  pure (address, finding)

/-- The rendered scalar at a path. -/
def scalar (translator : Translator) (locale : Option Locale) (path : String)
    (index : Option Position) (arguments : Arguments) : Except Error String := do
  let (address, finding) ← translator.find locale path index
  let template ← finding.scalar address
  template.render arguments translator.escaping

/-- The rendered scalar at a path for the current locale. -/
def text (translator : Translator) (path : String) (arguments : Arguments) :
    Except Error String :=
  translator.scalar none path none arguments

/-- The rendered scalar at a path for a named locale. -/
def textIn (translator : Translator) (locale : Locale) (path : String)
    (arguments : Arguments) : Except Error String :=
  translator.scalar (some locale) path none arguments

/-- The rendered element of the list or indexed map at a path. -/
def textAt (translator : Translator) (path : String) (index : Position)
    (arguments : Arguments) : Except Error String :=
  translator.scalar none path (some index) arguments

/-- The rendered items of the list at a path. -/
def texts (translator : Translator) (path : String) (arguments : Arguments) :
    Except Error (List String) := do
  let (address, finding) ← translator.find none path none
  let templates ← finding.list address
  Template.renderAll templates arguments translator.escaping

/-- The entry at a path in its rendered form. -/
def entry (translator : Translator) (locale : Option Locale) (path : String)
    (arguments : Arguments) : Except Error Rendered := do
  let (_, finding) ← translator.find locale path none
  match finding.entry with
  | .scalar template => do
    let text ← template.render arguments translator.escaping
    pure (.scalar text)
  | .list templates => do
    let texts ← Template.renderAll templates arguments translator.escaping
    pure (.list texts)
  | .indexed map => do
    let entries ← map.entries.mapM fun (key, template) => do
      let text ← template.render arguments translator.escaping
      pure (key, text)
    pure (.indexed entries)

end Translator

/-- A source of text by path, which may have none. -/
structure Localizer where
  lookUp : String → Option Arguments → Option String

namespace Localizer

/-- The text at a path, or the given text where there is none. -/
def message (localizer : Localizer) (path : String) (arguments : Option Arguments)
    (fallback : String) : String :=
  (localizer.lookUp path arguments).getD fallback

/-- The text at a path, or the path itself where there is none. -/
def messageOrPath (localizer : Localizer) (path : String) (arguments : Option Arguments) :
    String :=
  localizer.message path arguments path

/-- The localizer that never has a text. -/
def silent : Localizer where
  lookUp _ _ := none

end Localizer

/-- The rendered scalars of a translator for its current locale. -/
def Translator.localizer (translator : Translator) : Localizer where
  lookUp path arguments := (translator.text path (arguments.getD [])).toOption

end Phrasebook
