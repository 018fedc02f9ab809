import Phrasebook.Document.Basic
import Phrasebook.Toml.Moment

/-! # Values of TOML

What stands behind a key of a file (`Phrasebook.Toml.Value`), and the document that
a catalogue makes of it (`Phrasebook.Toml.Value.document`).
-/

namespace Phrasebook.Toml

/-- A value. Of numbers and booleans only the kind is kept; the members of a table
are in increasing order of their keys. -/
inductive Value
  | text (value : String)
  | number
  | boolean
  | moment (moment : Moment)
  | array (items : List Value)
  | table (members : List (String × Value))
deriving Inhabited

/-- The key under which a document holds a date or a time. -/
def momentKey : String :=
  "$__toml_private_datetime"

/-- The document of a date or a time: a mapping with one member that holds its
printed form. -/
def Moment.document (moment : Moment) : Document :=
  .mapping [(momentKey, .text (String.ofList moment.text))]

namespace Value

mutual

/-- The document that a value stands for. -/
def document : Value → Document
  | .text value => .text value
  | .number => .literal .number
  | .boolean => .literal .boolean
  | .moment value => value.document
  | .array items => .sequence (itemDocuments items)
  | .table members => .mapping (memberDocuments members)

/-- The documents of the items of an array. -/
def itemDocuments : List Value → List Document
  | [] => []
  | item :: rest => item.document :: itemDocuments rest

/-- The documents of the members of a table. -/
def memberDocuments : List (String × Value) → List (String × Document)
  | [] => []
  | (key, value) :: rest => (key, value.document) :: memberDocuments rest

end

end Value

end Phrasebook.Toml
