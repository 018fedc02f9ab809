import Phrasebook.Catalogue.Basic
import Phrasebook.Catalogue.Fault
import Phrasebook.Document.Draft

/-! # Catalogues from documents

A document is checked once, member by member in the order of the source, and
becomes a catalogue (`Phrasebook.Catalogue.ofDocument`). Keys are not empty and
hold no dot or bracket, siblings have different keys, and all values are texts,
sequences of texts or mappings. A mapping below the root that has a key of digits
is an indexed map; its digit keys are read as numbers, so `1` and `01` are one
key.
-/

namespace Phrasebook.Catalogue

/-- Whether a key consists of digits, and so stands for a position. -/
def isPositionKey (key : String) : Bool :=
  Text.isNumeral key.toList

/-- Accepts the keys that an address can name. -/
def checkKey (place key : String) : Except Fault Unit :=
  if key.isEmpty then .error (.invalid place .emptyKey)
  else if key.toList.any fun c => c == '.' || c == '[' || c == ']' then
    .error (.invalid place .reservedKey)
  else .ok ()

/-- The template that a document writes at a place. -/
def templateOf (place : String) : Document → Except Fault Template
  | .text value => .ok ⟨value⟩
  | other => .error (.invalid place (.noText other.kind))

/-- The templates of a sequence, whose items have the positions from `index`
on. -/
def templatesOf (place : String) (index : Nat) : List Document → Except Fault (List Template)
  | [] => .ok []
  | item :: rest => do
    let template ← templateOf (place ++ "." ++ String.ofList (Nat.toDigits 10 index)) item
    let templates ← templatesOf place (index + 1) rest
    pure (template :: templates)

/-- The key of an indexed map that a member stands under. -/
def keyOf (place key : String) : Except Fault IndexedMap.Key :=
  if isPositionKey key then
    match Position.ofNumeral? key.toList with
    | some index => .ok (.position index)
    | none => .error (.invalid place .largeIndex)
  else .ok (.name key)

/-- The entries of an indexed map, after the `earlier` ones. -/
def entriesOf (place : String) (earlier : List (IndexedMap.Key × Template)) :
    List (String × Document) → Except Fault (List (IndexedMap.Key × Template))
  | [] => .ok earlier
  | (key, value) :: rest => do
    let here := Address.under place key
    checkKey here key
    let slot ← keyOf here key
    if earlier.any fun entry => entry.1 == slot then throw (.duplicateKey here)
    let template ← templateOf here value
    entriesOf place (earlier ++ [(slot, template)]) rest

/-- The indexed map that the members of a mapping write. -/
def indexedOf (place : String) (members : List (String × Document)) : Except Fault Node := do
  let entries ← entriesOf place [] members
  pure (.entry (.indexed ⟨entries⟩))

mutual

/-- The node that a document writes at a place below the root. -/
def nodeOf (place : String) : Document → Except Fault Node
  | .text value => .ok (.entry (.scalar ⟨value⟩))
  | .sequence items => do
    let templates ← templatesOf place 0 items
    pure (.entry (.list templates))
  | .mapping members =>
    if members.any fun member => isPositionKey member.1 then indexedOf place members
    else do
      let children ← childrenOf place [] members
      pure (.branch children)
  | .indexed members => indexedOf place members
  | .literal kind => .error (.invalid place (.literal kind))

/-- The children of a namespace, together with the `earlier` ones. -/
def childrenOf (place : String) (earlier : Namespace) :
    List (String × Document) → Except Fault Namespace
  | [] => .ok earlier
  | (key, value) :: rest => do
    let here := Address.under place key
    checkKey here key
    if (earlier.get? key).isSome then throw (.duplicateKey here)
    let node ← nodeOf here value
    childrenOf place (earlier.put key node) rest

end

/-- The catalogue that a document writes. The root is a namespace, also when it
has keys of digits. -/
def ofDocument : Document → Except Fault Catalogue
  | .mapping members => do
    let root ← childrenOf "" [] members
    pure ⟨root⟩
  | other => .error (.invalid "" (.rootKind other.kind))

/-- The catalogue that a draft writes. -/
def ofDraft (draft : Draft) : Except Fault Catalogue :=
  ofDocument draft.document

end Phrasebook.Catalogue
