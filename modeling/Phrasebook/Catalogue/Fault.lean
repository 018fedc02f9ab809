import Phrasebook.Document.Basic

/-! # Faults of documents

Why a document is no catalogue, and at which place of it
(`Phrasebook.Catalogue.Fault`).
-/

namespace Phrasebook.Catalogue

/-- What makes a place of a document unusable. -/
inductive Reason
  | unreadable
  | rootKind (found : Document.Kind)
  | literal (kind : Document.Literal)
  | largeIndex
  | noText (found : Document.Kind)
  | emptyKey
  | reservedKey
deriving DecidableEq, Repr

/-- The wording of a reason. -/
def Reason.message : Reason → String
  | .unreadable => "<syntax>"
  | .rootKind found => "catalogue root must be a mapping, found " ++ found.description
  | .literal kind => kind.name ++ " values are not supported"
  | .largeIndex => "index does not fit in usize"
  | .noText found => "expected a string, found " ++ found.description
  | .emptyKey => "keys must not be empty"
  | .reservedKey => "keys must not contain '.', '[' or ']'"

/-- A fault of a document: a reason at a dotted place, or a key that repeats an
earlier one of the same mapping. -/
inductive Fault
  | invalid (place : String) (reason : Reason)
  | duplicateKey (place : String)
deriving DecidableEq, Repr

/-- The wording of a fault. -/
def Fault.message : Fault → String
  | .invalid place reason => "invalid catalogue at '" ++ place ++ "': " ++ reason.message
  | .duplicateKey place => "duplicate key '" ++ place ++ "' in catalogue"

end Phrasebook.Catalogue
