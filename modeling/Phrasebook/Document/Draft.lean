import Phrasebook.Document.Basic
import Phrasebook.Text.Numeral

/-! # Drafts of catalogues

A catalogue can be drafted in memory, key by key (`Phrasebook.Draft`). A draft is
not checked while it is written: it becomes a document
(`Phrasebook.Draft.document`), and the document is checked like any other.
-/

namespace Phrasebook

/-- An item of an indexed map: a template at a position or under a name. -/
inductive Draft.Slot
  | at (index : Position) (text : String)
  | named (name : String) (text : String)
deriving DecidableEq, Repr

/-- One item of a namespace that is being drafted. -/
inductive Draft.Item
  | scalar (key : String) (text : String)
  | list (key : String) (texts : List String)
  | indexed (key : String) (slots : List Draft.Slot)
  | group (key : String) (items : List Draft.Item)

/-- A drafted catalogue: the items of its root, in the order of their
writing. -/
abbrev Draft := List Draft.Item

namespace Draft

/-- The member of an indexed map that a slot drafts. -/
def Slot.member : Slot → String × Document
  | .at index text => (index.numeral, .text text)
  | .named name text => (name, .text text)

mutual

/-- The member of a mapping that an item drafts. -/
def Item.member : Item → String × Document
  | .scalar key text => (key, .text text)
  | .list key texts => (key, .sequence (texts.map .text))
  | .indexed key slots => (key, .indexed (slots.map Slot.member))
  | .group key items => (key, .mapping (Item.members items))

/-- The members of a mapping that a list of items drafts. -/
def Item.members : List Item → List (String × Document)
  | [] => []
  | item :: rest => item.member :: Item.members rest

end

/-- The document that a draft stands for. -/
def document (draft : Draft) : Document :=
  .mapping (Item.members draft)

end Draft

end Phrasebook
