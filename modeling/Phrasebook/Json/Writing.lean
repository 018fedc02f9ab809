/-! # Writing JSON

Values are written over several lines, each level of nesting indented by two more
spaces (`Phrasebook.Json.Value.pretty`). Text is written as it is, with quotes,
backslashes and control characters escaped.
-/

namespace Phrasebook.Json

/-- A value that can be written. -/
inductive Value
  | null
  | number (value : Nat)
  | text (value : String)
  | array (items : List Value)
  | object (members : List (String × Value))

/-- The escaped form of a character of a text. -/
def escapedChar (c : Char) : List Char :=
  match c with
  | '"' => ['\\', '"']
  | '\\' => ['\\', '\\']
  | '\x08' => ['\\', 'b']
  | '\x0c' => ['\\', 'f']
  | '\n' => ['\\', 'n']
  | '\r' => ['\\', 'r']
  | '\t' => ['\\', 't']
  | c =>
    if c.toNat < 0x20 then
      ['\\', 'u', '0', '0', Nat.digitChar (c.toNat / 16), Nat.digitChar (c.toNat % 16)]
    else [c]

/-- A text between quotes. -/
def quotedText (text : String) : String :=
  String.ofList ('"' :: text.toList.flatMap escapedChar ++ ['"'])

/-- The start of a line at a level of nesting. -/
def lineStart (level : Nat) : String :=
  String.ofList ('\n' :: List.replicate (2 * level) ' ')

/-- Lines between an opening and a closing mark; without lines the marks stand
together. -/
def enclosed (opening closing : String) (level : Nat) (lines : List String) : String :=
  if lines.isEmpty then opening ++ closing
  else
    opening ++ ",".intercalate (lines.map (lineStart (level + 1) ++ ·)) ++ lineStart level ++
      closing

namespace Value

mutual

/-- A value over several lines, inside `level` others. -/
def pretty (level : Nat) : Value → String
  | .null => "null"
  | .number value => toString value
  | .text value => quotedText value
  | .array items => enclosed "[" "]" level (prettyItems (level + 1) items)
  | .object members => enclosed "\x7b" "\x7d" level (prettyMembers (level + 1) members)

/-- The items of an array. -/
def prettyItems (level : Nat) : List Value → List String
  | [] => []
  | item :: rest => pretty level item :: prettyItems level rest

/-- The members of an object. -/
def prettyMembers (level : Nat) : List (String × Value) → List String
  | [] => []
  | (key, value) :: rest => (quotedText key ++ ": " ++ pretty level value) ::
    prettyMembers level rest

end

end Value

end Phrasebook.Json
