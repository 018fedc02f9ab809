import Phrasebook.Error
import Phrasebook.File.Path
import Phrasebook.Json.Reading
import Phrasebook.Toml.Reading

/-! # Formats of catalogue files

A catalogue file is named after its locale, and its extension says in which format
it is written (`Phrasebook.File.classify?`).
-/

namespace Phrasebook.File

/-- The formats of catalogue files. -/
inductive Format
  | json
  | toml
deriving DecidableEq, Repr

namespace Format

/-- The extension of a format. -/
def extension : Format → String
  | .json => "json"
  | .toml => "toml"

/-- The format that an extension in any case names. -/
def ofExtension? (extension : String) : Option Format :=
  let folded := String.ofList (extension.toList.map Char.toLower)
  if folded = Format.json.extension then some .json
  else if folded = Format.toml.extension then some .toml
  else none

/-- The document that a text writes in a format. -/
def document? (format : Format) (text : String) : Option Document :=
  match format with
  | .json => Document.ofJson? text
  | .toml => Document.ofToml? text

/-- The catalogue that a text writes; the path tells which file a failure is
about. -/
def parse (format : Format) (path text : String) : Except Error Catalogue :=
  match format.document? text with
  | none => .error (.file path .unparsable)
  | some document =>
    (Catalogue.ofDocument document).mapError fun fault => .file path (.content fault)

end Format

/-- The locale and the format of a file name, if its extension names a format. -/
def classify? (name : String) : Option (Except Error (Locale × Format)) :=
  ((extension? name).bind Format.ofExtension?).map fun format =>
    (Locale.parse (stem name)).map (·, format)

/-- The path of the catalogue file of a locale in a folder. -/
def cataloguePath (folder : String) (locale : Locale) (format : Format) : String :=
  join folder (locale.canonical ++ "." ++ format.extension)

end Phrasebook.File
