import Phrasebook.Toml.Scalar
import Phrasebook.Toml.Table
import Phrasebook.Toml.Token

/-! # Reading TOML files

The tokens of a file are read one after another with a stack of the values that are
open (`Phrasebook.Toml.Reader`). The file is a table whose members, and those of all
tables in it, are in increasing order of their keys (`Phrasebook.Toml.read?`). The
document of a catalogue file lists them in that order
(`Phrasebook.Document.ofToml?`).
-/

namespace Phrasebook

namespace Toml

/-- A dotted key that is being read: its parts, latest first, and whether another
part must follow. -/
structure Key where
  parts : List String
  isOpen : Bool

/-- The key of which nothing has been read. -/
def Key.start : Key := ⟨[], true⟩

/-- The characters of bare keys. -/
def isBareKeyChar (c : Char) : Bool :=
  c.isAlphanum || c == '_' || c == '-'

/-- One step through a dotted key. -/
def Key.step (key : Key) (token : Token) : Option Key :=
  match token with
  | .space _ => some key
  | .word text =>
    if key.isOpen && text.all isBareKeyChar then some ⟨String.ofList text :: key.parts, false⟩
    else none
  | .quoted text false => if key.isOpen then some ⟨text :: key.parts, false⟩ else none
  | .mark .dot => if key.isOpen then none else some { key with isOpen := true }
  | _ => none

/-- The path of a complete dotted key. -/
def Key.path? (dialect : Dialect) (key : Key) : Option (List String) :=
  if key.isOpen || dialect.maxParts < key.parts.length then none else some key.parts.reverse

/-- What waits for the value that is being read: the line that assigns it, an array
or an inline table, with its contents so far. -/
inductive Frame
  | line (path : List String)
  | array (items : List Value)
  | inline (members : Members) (path : List String)

/-- What may come next. -/
inductive Reader.Turn
  | line
  | lineEnd
  | headerStart
  | header (isElement : Bool) (key : Key)
  | headerClose (path : List String)
  | key (key : Key)
  | value
  | item (items : List Value)
  | afterItem (items : List Value)
  | inlineStart
  | inlineKey (members : Members) (key : Key)
  | inlineEquals (members : Members) (path : List String)
  | afterInline (members : Members)
  | scalar (text : List Char) (gap : Option (List Char))

/-- The reader of files: the members described so far, the table that the last
header opened, the values that are open, innermost first, and what may come
next. -/
structure Reader where
  members : Members
  table : List String
  outer : List Frame
  turn : Reader.Turn

namespace Reader

/-- A value is complete: it goes to the innermost frame that waits for one. -/
def complete (reader : Reader) (value : Value) : Option Reader :=
  match reader.outer with
  | [] => none
  | .line path :: rest =>
    (within? (assign? value path) reader.table reader.members).map fun members =>
      { reader with members, outer := rest, turn := .lineEnd }
  | .array items :: rest =>
    some { reader with outer := rest, turn := .afterItem (value :: items) }
  | .inline members path :: rest =>
    (assign? value path members).map fun members =>
      { reader with outer := rest, turn := .afterInline members }

/-- The first token of a value. -/
def stepValue (dialect : Dialect) (reader : Reader) (token : Token) : Option Reader :=
  match token with
  | .quoted text _ => reader.complete (.text text)
  | .word text => some { reader with turn := .scalar text none }
  | .mark .openBracket =>
    if reader.outer.length ≤ dialect.maxDepth then some { reader with turn := .item [] }
    else none
  | .mark .openBrace =>
    if reader.outer.length ≤ dialect.maxDepth then some { reader with turn := .inlineStart }
    else none
  | _ => none

/-- The value of a key comes next; `frame` waits for it. -/
def await (reader : Reader) (frame : Frame) : Reader :=
  { reader with outer := frame :: reader.outer, turn := .value }

/-- One step through a key that an equals sign ends. -/
def stepKey (dialect : Dialect) (reader : Reader) (key : Key) (turn : Key → Turn)
    (frame : List String → Frame) (token : Token) : Option Reader :=
  match token with
  | .mark .equals => (key.path? dialect).map fun path => reader.await (frame path)
  | token => (key.step token).map fun key => { reader with turn := turn key }

/-- One step through a key of an inline table. A line may end before a key and behind
it, but not inside it. -/
def stepInlineKey (dialect : Dialect) (reader : Reader) (members : Members) (key : Key)
    (token : Token) : Option Reader :=
  match token with
  | .lineEnd =>
    if !dialect.isExtended then none
    else if key.parts.isEmpty then some reader
    else (key.path? dialect).map fun path => { reader with turn := .inlineEquals members path }
  | token => reader.stepKey dialect key (.inlineKey members) (.inline members) token

/-- Whether the value that comes next belongs to an inline table. -/
def isInline (reader : Reader) : Bool :=
  match reader.outer with
  | .inline _ _ :: _ => true
  | _ => false

/-- One step inside an inline table, between its members. -/
def stepInline (dialect : Dialect) (reader : Reader) (token : Token) : Option Reader :=
  match reader.turn, token with
  | .inlineStart, .space _ => some reader
  | .inlineStart, .lineEnd => if dialect.isExtended then some reader else none
  | .inlineStart, .mark .closeBrace => reader.complete (.table [])
  | .inlineStart, token => reader.stepInlineKey dialect [] .start token
  | .inlineKey members key, .mark .closeBrace =>
    if dialect.isExtended && key.parts.isEmpty then
      reader.complete (.table (Item.toMembers members))
    else none
  | .inlineKey members key, token => reader.stepInlineKey dialect members key token
  | .inlineEquals _ _, .space _ => some reader
  | .inlineEquals _ _, .lineEnd => some reader
  | .inlineEquals members path, .mark .equals => some (reader.await (.inline members path))
  | .afterInline _, .space _ => some reader
  | .afterInline _, .lineEnd => if dialect.isExtended then some reader else none
  | .afterInline members, .mark .comma =>
    some { reader with turn := .inlineKey members .start }
  | .afterInline members, .mark .closeBrace => reader.complete (.table (Item.toMembers members))
  | _, _ => none

/-- One step, unless an unquoted value is being read. -/
def stepOutside (dialect : Dialect) (reader : Reader) (token : Token) : Option Reader :=
  match reader.turn, token with
  | .line, .space _ => some reader
  | .line, .lineEnd => some reader
  | .line, .mark .openBracket => some { reader with turn := .headerStart }
  | .line, token => reader.stepKey dialect .start .key .line token
  | .lineEnd, .space _ => some reader
  | .lineEnd, .lineEnd => some { reader with turn := .line }
  | .headerStart, .mark .openBracket => some { reader with turn := .header true .start }
  | .headerStart, token => (Key.start.step token).map fun key =>
      { reader with turn := .header false key }
  | .header false key, .mark .closeBracket => do
    let path ← key.path? dialect
    let members ← openTable? path reader.members
    some { reader with members, table := path, turn := .lineEnd }
  | .header true key, .mark .closeBracket =>
    (key.path? dialect).map fun path => { reader with turn := .headerClose path }
  | .header isElement key, token => (key.step token).map fun key =>
      { reader with turn := .header isElement key }
  | .headerClose path, .mark .closeBracket =>
    (openElement? path reader.members).map fun members =>
      { reader with members, table := path, turn := .lineEnd }
  | .key key, token => reader.stepKey dialect key .key .line token
  | .value, .space _ => some reader
  | .value, .lineEnd => if dialect.isExtended && reader.isInline then some reader else none
  | .value, token => reader.stepValue dialect token
  | .item _, .space _ => some reader
  | .item _, .lineEnd => some reader
  | .item items, .mark .closeBracket => reader.complete (.array items.reverse)
  | .item items, token =>
    stepValue dialect { reader with outer := .array items :: reader.outer } token
  | .afterItem _, .space _ => some reader
  | .afterItem _, .lineEnd => some reader
  | .afterItem items, .mark .comma => some { reader with turn := .item items }
  | .afterItem items, .mark .closeBracket => reader.complete (.array items.reverse)
  | _, token => reader.stepInline dialect token

/-- Whether a text behind a space continues a date with a time. -/
def continuesDate (text : List Char) (gap : List Char) : Bool :=
  gap == [' '] && (match Date.take? text with
    | some (_, []) => true
    | _ => false)

/-- The end of an unquoted value. -/
def endScalar (dialect : Dialect) (reader : Reader) (text : List Char) : Option Reader :=
  (scalar? dialect text).bind reader.complete

/-- One step of the reader. Words and dots that follow each other directly write one
unquoted value; a time may stand one space behind its date. -/
def step (dialect : Dialect) (reader : Reader) (token : Token) : Option Reader :=
  match reader.turn, token with
  | .scalar text none, .word more => some { reader with turn := .scalar (text ++ more) none }
  | .scalar text none, .mark .dot => some { reader with turn := .scalar (text ++ ['.']) none }
  | .scalar text none, .space gap => some { reader with turn := .scalar text (some gap) }
  | .scalar text (some gap), .word more =>
    if continuesDate text gap then some { reader with turn := .scalar (text ++ ' ' :: more) none }
    else none
  | .scalar text _, token =>
    (reader.endScalar dialect text).bind fun reader => reader.stepOutside dialect token
  | _, token => reader.stepOutside dialect token

/-- The members of a file that ends here. -/
def finish? (dialect : Dialect) (reader : Reader) : Option Members :=
  match reader.turn with
  | .line | .lineEnd => some reader.members
  | .scalar text _ => (reader.endScalar dialect text).bind fun reader =>
    match reader.turn with
    | .lineEnd => some reader.members
    | _ => none
  | _ => none

end Reader

/-- The members that a list of tokens describes. -/
def members? (dialect : Dialect) (tokens : List Token) : Option Members :=
  (tokens.foldlM (Reader.step dialect) ⟨[], [], [], .line⟩).bind (Reader.finish? dialect)

/-- The members of the table that a text writes. -/
def read? (dialect : Dialect) (text : String) : Option (List (String × Value)) :=
  ((tokens? dialect text.toList).bind (members? dialect)).map Item.toMembers

end Toml

/-- The document that the text of a catalogue file in TOML writes. -/
def Document.ofToml? (text : String) : Option Document :=
  (Toml.read? .catalogue text).map fun members => (Toml.Value.table members).document

end Phrasebook
