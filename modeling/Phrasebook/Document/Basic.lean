/-! # Documents

A document is the content of a catalogue source before it is checked: texts,
sequences and mappings whose members keep the order and the repetitions of the
source (`Phrasebook.Document`).
-/

namespace Phrasebook

/-- Values that a document may hold but a catalogue may not. -/
inductive Document.Literal
  | number
  | boolean
  | null
deriving DecidableEq, Repr

/-- A tree of texts, with the members of mappings in the order of the source. An
`indexed` mapping was written as an indexed map, whatever its keys are. -/
inductive Document
  | text (value : String)
  | sequence (items : List Document)
  | mapping (members : List (String × Document))
  | indexed (members : List (String × Document))
  | literal (kind : Document.Literal)
deriving Inhabited

namespace Document

/-- What kind of value stands at a place of a document. -/
inductive Kind
  | text
  | sequence
  | mapping
  | literal (kind : Literal)
deriving DecidableEq, Repr

/-- The kind of a document; both forms of mapping are one kind. -/
def kind : Document → Kind
  | .text _ => .text
  | .sequence _ => .sequence
  | .mapping _ | .indexed _ => .mapping
  | .literal kind => .literal kind

/-- The name of a literal. -/
def Literal.name : Literal → String
  | .number => "number"
  | .boolean => "boolean"
  | .null => "null"

/-- The description of a kind. -/
def Kind.description : Kind → String
  | .text => "a string"
  | .sequence => "an array"
  | .mapping => "a mapping"
  | .literal kind => kind.name

end Document

end Phrasebook
