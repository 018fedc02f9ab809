import Phrasebook.Toml.Reading

/-! # Settings files

A settings file is a table of fields (`Phrasebook.Settings.fileFields?`). Two keys are
reserved below that table (`Phrasebook.Settings.unwrap?`): a table that holds a value
under `Phrasebook.Settings.valueKey` is a wrapping and stands for that value alone,
and no table may have the key `Phrasebook.Settings.refusedKey`.
-/

namespace Phrasebook.Settings

/-- The key under which a wrapping holds its value. -/
def valueKey : String := "___figment_value_value"

/-- The key that makes a table unreadable, whatever stands under it. -/
def refusedKey : String := "___figment_value_id"

/-- The document of a table: of a wrapping it is the value. -/
def ofTable (members : List (String × Document)) : Document :=
  (members.lookup valueKey).getD (.mapping members)

mutual

/-- The document of a value without its wrappings: none when a table in it, however
deep, has the refused key. -/
def unwrap? : Toml.Value → Option Document
  | .text value => some (.text value)
  | .number => some (.literal .number)
  | .boolean => some (.literal .boolean)
  | .moment moment => some moment.document
  | .array items => (unwrapItems? items).map .sequence
  | .table members => (unwrapMembers? members).map ofTable

/-- The documents of the items of an array without their wrappings. -/
def unwrapItems? : List Toml.Value → Option (List Document)
  | [] => some []
  | item :: rest => do
    let document ← unwrap? item
    let documents ← unwrapItems? rest
    some (document :: documents)

/-- The documents of the members of a table without their wrappings. -/
def unwrapMembers? : List (String × Toml.Value) → Option (List (String × Document))
  | [] => some []
  | (key, value) :: rest =>
    if key = refusedKey then none
    else do
      let document ← unwrap? value
      let documents ← unwrapMembers? rest
      some ((key, document) :: documents)

end

/-- The fields that the text of a settings file sets. -/
def fieldsOfText? (text : String) : Option (List (String × Document)) := do
  let members ← Toml.read? .settings text
  members.mapM fun (key, value) => (unwrap? value).map (key, ·)

/-- The fields that a settings file sets: none when there is no file. A file whose
bytes are no text is no settings file. -/
def fileFields? : Option (Option String) → Option (List (String × Document))
  | none => some []
  | some content => content.bind fieldsOfText?

end Phrasebook.Settings
