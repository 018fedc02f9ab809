import Phrasebook.Address
import Phrasebook.Catalogue.Fault
import Phrasebook.Entry
import Phrasebook.Locale.Reading

/-! # Errors

Every operation of the library fails with one of these causes
(`Phrasebook.Error`). A host recovers from the failures of a single look-up by
showing other text; the remaining causes need its attention
(`Phrasebook.Error.isRecoverable`).
-/

namespace Phrasebook

/-- Why a catalogue file could not be used. -/
inductive Error.FileCause
  | unreadable
  | unparsable
  | noFileName
  | unknownExtension
  | repeatedLocale (locale : Locale)
  | content (fault : Catalogue.Fault)
deriving DecidableEq

/-- Causes of failure. -/
inductive Error
  | notInitialized
  | unknownLocale (locale : Locale)
  | invalidLocale (raw : String) (fault : Locale.Fault)
  | missingKey (path : String)
  | indexOutOfRange (path : String) (index : Position)
  | missingParam (name : String)
  | unexpectedShape (path : String) (expected found : Shape)
  | invalidPath (path : String) (fault : Address.Fault)
  | invalidCatalogue (fault : Catalogue.Fault)
  | reentrantSwitch (requested : Locale)
  | file (path : String) (cause : Error.FileCause)
  | settings
deriving DecidableEq

namespace Error

/-- The wording of the cause of a file error. -/
def FileCause.message : FileCause → String
  | .unreadable => "<io>"
  | .unparsable => "<syntax>"
  | .noFileName => "cannot determine file name for catalogue path"
  | .unknownExtension => "unsupported catalogue file extension"
  | .repeatedLocale locale =>
    "locale '" ++ locale.canonical ++ "' is defined by more than one file"
  | .content fault => fault.message

/-- The wording of an error. -/
def message : Error → String
  | .notInitialized => "no default locale has been declared"
  | .unknownLocale locale => "locale '" ++ locale.canonical ++ "' is not registered"
  | .invalidLocale raw fault => "invalid locale tag '" ++ raw ++ "': " ++ fault.message
  | .missingKey path => "no entry found for '" ++ path ++ "'"
  | .indexOutOfRange path index =>
    "index " ++ index.numeral ++ " is out of range for '" ++ path ++ "'"
  | .missingParam name => "template parameter '" ++ name ++ "' was not supplied"
  | .unexpectedShape path expected found =>
    "entry '" ++ path ++ "' has shape " ++ found.name ++ ", expected " ++ expected.name
  | .invalidPath path fault => "invalid key path '" ++ path ++ "': " ++ fault.message
  | .invalidCatalogue fault => fault.message
  | .reentrantSwitch requested =>
    "cannot switch to '" ++ requested.canonical ++ "' from inside a locale-change observer"
  | .file path cause => "catalogue file error in '" ++ path ++ "': " ++ cause.message
  | .settings => "failed to load localisation settings"

/-- Whether a host goes on after the failure and shows other text. -/
def isRecoverable : Error → Bool
  | .missingKey _ | .missingParam _ | .indexOutOfRange _ _ | .unexpectedShape _ _ _
  | .invalidPath _ _ => true
  | _ => false

end Error

/-- The locale that a text writes. -/
def Locale.parse (raw : String) : Except Error Locale :=
  (Locale.read raw).mapError (.invalidLocale raw)

/-- The address that a text writes. -/
def Address.parse (raw : String) : Except Error Address :=
  (Address.read raw).mapError (.invalidPath raw)

end Phrasebook
