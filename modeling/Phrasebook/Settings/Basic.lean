import Phrasebook.Error
import Phrasebook.Locale.Reading
import Phrasebook.Settings.File
import Phrasebook.Settings.Variable
import Phrasebook.Template.Argument

/-! # Settings

With which locales, from which folder and with which escaping a translator starts
(`Phrasebook.Settings`). Settings come in layers: the values of a file replace the
defaults, and the values of the environment replace both
(`Phrasebook.Settings.load`). A value that is replaced does no harm, whatever it
is.
-/

namespace Phrasebook

/-- The start of a translator: the fallback locale, the locale to activate, the
folder of the catalogue files, and how values are written. -/
structure Settings where
  fallback : Locale := .english
  active : Option Locale := none
  folder : Option String := none
  escaping : Escaping := .markup
deriving DecidableEq

namespace Settings

/-- The locale that is current after the start. -/
def startup (settings : Settings) : Locale :=
  settings.active.getD settings.fallback

/-- The names of the settings, in the order in which a list gives them. -/
def fieldNames : List String :=
  ["default_locale", "active_locale", "catalog_dir", "escaping"]

/-- The locale that a value writes. -/
def locale? : Document → Option Locale
  | .text value => (Locale.read value).toOption
  | _ => none

/-- The text that a value writes. -/
def text? : Document → Option String
  | .text value => some value
  | _ => none

/-- The way of escaping that a word names. -/
def escapingNamed? (name : String) : Option Escaping :=
  if name = "markup" then some .markup
  else if name = "verbatim" then some .verbatim
  else none

/-- The way of escaping that a value writes: its name, also as the only key of a
mapping to nothing. -/
def escaping? : Document → Option Escaping
  | .text name => escapingNamed? name
  | .mapping [(name, .literal .null)] => escapingNamed? name
  | _ => none

/-- A value that may be left out or given as nothing. -/
def optional? {α : Type} (read? : Document → Option α) : Option Document → Option (Option α)
  | none | some (.literal .null) => some none
  | some value => (read? value).map some

/-- A value that has a default when it is left out. -/
def withDefault? {α : Type} (default : α) (read? : Document → Option α) :
    Option Document → Option α
  | none => some default
  | some value => read? value

/-- The settings that the values of the fields write. -/
def ofFields? (field : String → Option Document) : Option Settings := do
  let fallback ← withDefault? .english locale? (field "default_locale")
  let active ← optional? locale? (field "active_locale")
  let folder ← optional? text? (field "catalog_dir")
  let escaping ← withDefault? .markup escaping? (field "escaping")
  some { fallback, active, folder, escaping }

/-- The settings that a document writes: a mapping by name, or a sequence in the
order of the fields. -/
def ofDocument? : Document → Option Settings
  | .mapping members => ofFields? fun name => members.lookup name
  | .sequence items =>
    if fieldNames.length < items.length then none
    else ofFields? fun name => (fieldNames.zip items).lookup name
  | _ => none

/-- The settings of the defaults, a settings file and the environment. -/
def load (file : Option (Option String)) (environment : List (String × String)) :
    Except Error Settings :=
  match (fileFields? file).bind fun fields =>
    ofFields? fun name => (environmentFields environment ++ fields).lookup name with
  | some settings => .ok settings
  | none => .error .settings

end Settings

end Phrasebook
