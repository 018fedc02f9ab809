import Phrasebook.Text.Numeral

/-! # Addresses of entries

An address leads from the root of a catalogue to an entry. It is written as parts
between dots; a part is a name or a numeral, followed by any number of numerals in
brackets (`Phrasebook.Address.read`). A part of digits alone addresses a position
as a bracket does, so `a.1` and `a[1]` have the same steps.
-/

namespace Phrasebook

namespace Address

/-- One step from a place in a catalogue to a place below it. -/
inductive Step
  | name (text : String)
  | position (index : Position)
deriving DecidableEq, Repr

/-- The text of a step; a position is written as its numeral. -/
def Step.text : Step → String
  | .name text => text
  | .position index => index.numeral

/-- Why a text is no address. -/
inductive Fault
  | empty
  | emptySegment
  | strayBracket
  | unterminatedBracket
  | noNumeral
  | textAfterBracket
deriving DecidableEq, Repr

/-- The wording of a fault. -/
def Fault.message : Fault → String
  | .empty => "path is empty"
  | .emptySegment => "path contains an empty segment"
  | .strayBracket => "unexpected ']'"
  | .unterminatedBracket => "unterminated '['"
  | .noNumeral => "brackets must contain a non-negative integer"
  | .textAfterBracket => "unexpected text after ']'"

end Address

/-- An address: the text that was given for it and the steps that it takes. -/
structure Address where
  text : String
  steps : List Address.Step
deriving DecidableEq

namespace Address

/-- The step that the text before any bracket writes: a position when it is the
numeral of one, else a name. -/
def readHead (head : List Char) : Except Fault Step :=
  if head.isEmpty then .error .emptySegment
  else if head.contains ']' then .error .strayBracket
  else match Position.ofNumeral? head with
    | some index => .ok (.position index)
    | none => .ok (.name (String.ofList head))

/-- The positions in brackets, from the pieces between closing brackets. Every
piece but the last opens a bracket around a numeral; the last is empty. -/
def readBrackets : List (List Char) → Except Fault (List Step)
  | [] => .ok []
  | [last] =>
    match last with
    | [] => .ok []
    | '[' :: _ => .error .unterminatedBracket
    | _ => .error .textAfterBracket
  | piece :: pieces =>
    match piece with
    | '[' :: inside =>
      match Position.ofNumeral? inside with
      | none => .error .noNumeral
      | some index => (readBrackets pieces).map (.position index :: ·)
    | _ => .error .textAfterBracket

/-- The steps of one part between dots. -/
def readPart (part : List Char) : Except Fault (List Step) := do
  let first ← readHead (part.takeWhile (· != '['))
  let more ← readBrackets ((part.dropWhile (· != '[')).splitOn ']')
  pure (first :: more)

/-- The address that a text writes. -/
def read (raw : String) : Except Fault Address :=
  match raw.toList with
  | [] => .error .empty
  | text => do
    let parts ← (text.splitOn '.').mapM readPart
    pure { text := raw, steps := parts.flatten }

/-- The address of a position below the place that an address leads to. -/
def child (address : Address) (index : Position) : Address where
  text := address.text ++ "." ++ index.numeral
  steps := address.steps ++ [.position index]

/-- The dotted text of a name below a place; the root has the empty text. -/
def under (place name : String) : String :=
  if place.isEmpty then name else place ++ "." ++ name

end Address

end Phrasebook
