import Phrasebook.Catalogue.Checking
import Phrasebook.Json.Token

/-! # Reading JSON documents

The tokens of a text are read one after another with a stack of the containers
that are open (`Phrasebook.Json.Reader`). All members of an object are kept, in the
order of the text and with their repetitions (`Phrasebook.Document.ofJson?`).
Containers are nested at most 127 deep. A catalogue can also be decoded from the
value at the front of a text before the rest of the text is looked at
(`Phrasebook.Catalogue.decodeJson`).
-/

namespace Phrasebook

namespace Json

/-- A container around the value that is being read, with its contents so far,
latest first. -/
inductive Frame
  | array (items : List Document)
  | object (members : List (String × Document)) (key : String)

/-- What may come next inside the open containers. -/
inductive Reader.Turn
  | value
  | firstItem
  | nextItem (items : List Document)
  | firstKey
  | nextKey (members : List (String × Document))
  | colon (members : List (String × Document)) (key : String)
  | nextMember (members : List (String × Document))
  | done (document : Document)

/-- The reader of documents: the containers around the current one, innermost
first, and what may come next. -/
structure Reader where
  outer : List Frame
  turn : Reader.Turn

/-- How many containers may be open at once. -/
def maxDepth : Nat := 127

namespace Reader

/-- A value is complete: it goes into the innermost open container. -/
def complete (outer : List Frame) (document : Document) : Reader :=
  match outer with
  | [] => ⟨[], .done document⟩
  | .array items :: rest => ⟨rest, .nextItem (document :: items)⟩
  | .object members key :: rest => ⟨rest, .nextMember ((key, document) :: members)⟩

/-- The first token of a value. -/
def stepValue (outer : List Frame) (token : Token) : Option Reader :=
  match token with
  | .text value => some (complete outer (.text value))
  | .literal kind => some (complete outer (.literal kind))
  | .openBracket => if outer.length < maxDepth then some ⟨outer, .firstItem⟩ else none
  | .openBrace => if outer.length < maxDepth then some ⟨outer, .firstKey⟩ else none
  | _ => none

/-- One step of the reader. -/
def step (reader : Reader) (token : Token) : Option Reader :=
  match reader.turn, token with
  | .value, token => stepValue reader.outer token
  | .firstItem, .closeBracket => some (complete reader.outer (.sequence []))
  | .firstItem, token => stepValue (.array [] :: reader.outer) token
  | .nextItem items, .comma => some ⟨.array items :: reader.outer, .value⟩
  | .nextItem items, .closeBracket => some (complete reader.outer (.sequence items.reverse))
  | .firstKey, .closeBrace => some (complete reader.outer (.mapping []))
  | .firstKey, .text key => some { reader with turn := .colon [] key }
  | .nextKey members, .text key => some { reader with turn := .colon members key }
  | .colon members key, .colon => some ⟨.object members key :: reader.outer, .value⟩
  | .nextMember members, .comma => some { reader with turn := .nextKey members }
  | .nextMember members, .closeBrace =>
    some (complete reader.outer (.mapping members.reverse))
  | _, _ => none

/-- The document of a text that ends here. -/
def finish? (reader : Reader) : Option Document :=
  match reader.turn with
  | .done document => some document
  | _ => none

/-- The document that the tokens at the front of a list complete. -/
def first? (reader : Reader) : List Token → Option Document
  | [] => reader.finish?
  | token :: rest =>
    match reader.finish? with
    | some document => some document
    | none => (reader.step token).bind fun next => next.first? rest

end Reader

/-- The document that a list of tokens writes. -/
def document? (tokens : List Token) : Option Document :=
  (tokens.foldlM Reader.step ⟨[], .value⟩).bind Reader.finish?

end Json

/-- The document that a JSON text writes. -/
def Document.ofJson? (text : String) : Option Document :=
  (Json.tokens? text.toList).bind Json.document?

/-- The document that the value at the front of a JSON text writes. -/
def Document.firstOfJson? (text : String) : Option Document :=
  Json.Reader.first? ⟨[], .value⟩ (Json.frontTokens text.toList)

/-- The catalogue that a JSON text writes. -/
def Catalogue.ofJson (text : String) : Except Catalogue.Fault Catalogue :=
  match Document.ofJson? text with
  | some document => ofDocument document
  | none => .error (.invalid "" .unreadable)

/-- The catalogue that is decoded from a JSON text. A fault in the value at its front
is found before anything behind that value; a text that cannot be read is refused
without a fault. -/
def Catalogue.decodeJson (text : String) : Except (Option Catalogue.Fault) Catalogue :=
  match Document.firstOfJson? text with
  | none => .error none
  | some document =>
    match ofDocument document with
    | .error fault => .error (some fault)
    | .ok catalogue => if (Document.ofJson? text).isSome then .ok catalogue else .error none

end Phrasebook
