import Phrasebook.Text.Numeral

/-! # Entries

An entry is what a host looks up: one template, a list of templates, or an indexed
map whose templates stand under positions and names (`Phrasebook.Entry`). An entry
keeps the shape in which it was written.
-/

namespace Phrasebook

/-- Text in which identifiers between braces stand for values. -/
structure Template where
  text : String
deriving DecidableEq, Repr

/-- The shapes that an address can lead to. -/
inductive Shape
  | scalar
  | list
  | indexedMap
  | namespaced
deriving DecidableEq, Repr

/-- The name of a shape. -/
def Shape.name : Shape → String
  | .scalar => "scalar"
  | .list => "list"
  | .indexedMap => "indexed map"
  | .namespaced => "namespace"

/-- What a template of an indexed map stands under. -/
inductive IndexedMap.Key
  | position (index : Position)
  | name (text : String)
deriving DecidableEq, Repr

/-- The text of a key; a position is written as its numeral. -/
def IndexedMap.Key.text : IndexedMap.Key → String
  | .position index => index.numeral
  | .name text => text

/-- Templates under positions and names, in the order in which they were
written. -/
structure IndexedMap where
  entries : List (IndexedMap.Key × Template)
deriving DecidableEq

namespace IndexedMap

/-- The template under a key. -/
def get? (map : IndexedMap) (key : Key) : Option Template :=
  map.entries.lookup key

/-- The template at a position. -/
def atPosition? (map : IndexedMap) (index : Position) : Option Template :=
  map.get? (.position index)

/-- The template under a name. -/
def named? (map : IndexedMap) (name : String) : Option Template :=
  map.entries.findSome? fun (key, template) =>
    match key with
    | .name other => if other = name then some template else none
    | .position _ => none

/-- The templates at positions, in increasing order of their positions. -/
def positional (map : IndexedMap) : List (Position × Template) :=
  (map.entries.filterMap fun (key, template) =>
    match key with
    | .position index => some (index, template)
    | .name _ => none).mergeSort fun first second => first.1 ≤ second.1

/-- A template is found by its name as under the key of the name. -/
theorem named?_eq_get? (map : IndexedMap) (name : String) :
    map.named? name = map.get? (.name name) := by
  obtain ⟨entries⟩ := map
  rw [named?, get?]
  induction entries with
  | nil => rfl
  | cons entry rest ih =>
    obtain ⟨key, template⟩ := entry
    rw [List.findSome?_cons, List.lookup_cons, ih]
    cases key with
    | position index => rfl
    | name other =>
      by_cases same : other = name
      · subst same
        simp
      · have different : Key.name name ≠ Key.name other := fun equal =>
          same (Key.name.inj equal).symm
        rw [beq_false_of_ne different]
        simp [same]

end IndexedMap

/-- A template, a list of templates, or an indexed map. -/
inductive Entry
  | scalar (template : Template)
  | list (items : List Template)
  | indexed (map : IndexedMap)
deriving DecidableEq

/-- The shape of an entry. -/
def Entry.shape : Entry → Shape
  | .scalar _ => .scalar
  | .list _ => .list
  | .indexed _ => .indexedMap

end Phrasebook
