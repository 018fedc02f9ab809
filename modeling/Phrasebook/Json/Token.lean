import Phrasebook.Document.Basic
import Phrasebook.Json.Number

/-! # Tokens of JSON

A text is read character by character into tokens
(`Phrasebook.Json.tokens?`). The reader stands between tokens, or inside a word, a
number or a string, and each character takes it one step further
(`Phrasebook.Json.Lexer.step`). A text that is no sequence of tokens as a whole has
tokens at its front (`Phrasebook.Json.frontTokens`).
-/

namespace Phrasebook.Json

/-- A token. Of numbers and words only the kind is kept. -/
inductive Token
  | openBrace
  | closeBrace
  | openBracket
  | closeBracket
  | comma
  | colon
  | text (value : String)
  | literal (kind : Document.Literal)
deriving DecidableEq

/-- Where the reader of tokens stands: of a word it knows the letters that are
missing; of a number or a string the characters read so far, latest first. -/
inductive Lexer.Place
  | between
  | word (kind : Document.Literal) (missing : List Char)
  | number (digits : List Char)
  | quoted (text : List Char)
  | escaped (text : List Char)
  | coded (text : List Char) (lead : Option Nat) (digits : List Nat)
  | paired (text : List Char) (lead : Nat)
  | pairEscaped (text : List Char) (lead : Nat)
deriving DecidableEq

/-- The reader of tokens: where it stands, and the tokens so far, latest first. -/
structure Lexer where
  place : Lexer.Place
  tokens : List Token

namespace Lexer

/-- White space between tokens. -/
def isSpace (c : Char) : Bool :=
  c == ' ' || c == '\t' || c == '\n' || c == '\r'

/-- The letters that mark an exponent. -/
def isMark (c : Char) : Bool :=
  c == 'e' || c == 'E'

/-- Whether a character goes on with a number whose characters so far come latest
first: any digit does, the first point before the exponent, the first mark of an
exponent behind a digit, and a sign right behind the mark. -/
def continues (digits : List Char) (c : Char) : Bool :=
  c.isDigit || (c == '.' && !digits.any fun digit => digit == '.' || isMark digit) ||
    (isMark c && !digits.any isMark && digits.head?.any Char.isDigit) ||
    ((c == '+' || c == '-') && digits.head?.any isMark)

/-- The token that is one character. -/
def punctuation? (c : Char) : Option Token :=
  match c with
  | '\x7b' => some .openBrace
  | '\x7d' => some .closeBrace
  | '[' => some .openBracket
  | ']' => some .closeBracket
  | ',' => some .comma
  | ':' => some .colon
  | _ => none

/-- The word that begins with a letter: its kind, and its other letters. -/
def word? (c : Char) : Option (Document.Literal × List Char) :=
  match c with
  | 't' => some (.boolean, ['r', 'u', 'e'])
  | 'f' => some (.boolean, ['a', 'l', 's', 'e'])
  | 'n' => some (.null, ['u', 'l', 'l'])
  | _ => none

/-- The tokens with a number behind them whose characters come latest first. -/
def withNumber? (tokens : List Token) (digits : List Char) : Option (List Token) :=
  if isNumber digits.reverse then some (.literal .number :: tokens) else none

/-- The character behind a backslash, for the escapes of one character. -/
def escape? (c : Char) : Option Char :=
  match c with
  | '"' => some '"'
  | '\\' => some '\\'
  | '/' => some '/'
  | 'b' => some '\x08'
  | 'f' => some '\x0c'
  | 'n' => some '\n'
  | 'r' => some '\r'
  | 't' => some '\t'
  | _ => none

/-- Where the reader stands after the four digits of a code unit. A lead surrogate
waits for its trail, and a trail alone is refused. -/
def afterUnit? (text : List Char) (lead : Option Nat) (unit : Nat) : Option Place :=
  match lead with
  | none =>
    if 0xD800 ≤ unit ∧ unit < 0xDC00 then some (.paired text unit)
    else if 0xDC00 ≤ unit ∧ unit < 0xE000 then none
    else some (.quoted (Char.ofNat unit :: text))
  | some lead =>
    if 0xDC00 ≤ unit ∧ unit < 0xE000 then
      some (.quoted (Char.ofNat (0x10000 + (lead - 0xD800) * 0x400 + (unit - 0xDC00)) :: text))
    else none

/-- One step from between two tokens. -/
def stepBetween (tokens : List Token) (c : Char) : Option Lexer :=
  if isSpace c then some ⟨.between, tokens⟩
  else if c = '"' then some ⟨.quoted [], tokens⟩
  else if c.isDigit || c == '-' then some ⟨.number [c], tokens⟩
  else match word? c with
    | some (kind, missing) => some ⟨.word kind missing, tokens⟩
    | none => (punctuation? c).map fun token => ⟨.between, token :: tokens⟩

/-- One step of the reader. -/
def step (lexer : Lexer) (c : Char) : Option Lexer :=
  match lexer.place with
  | .between => stepBetween lexer.tokens c
  | .word kind missing =>
    match missing with
    | [] => none
    | [last] => if c = last then some ⟨.between, .literal kind :: lexer.tokens⟩ else none
    | next :: missing => if c = next then some { lexer with place := .word kind missing } else none
  | .number digits =>
    if continues digits c then some { lexer with place := .number (c :: digits) }
    else (withNumber? lexer.tokens digits).bind fun tokens => stepBetween tokens c
  | .quoted text =>
    if c = '"' then some ⟨.between, .text (String.ofList text.reverse) :: lexer.tokens⟩
    else if c = '\\' then some { lexer with place := .escaped text }
    else if c.toNat < 0x20 then none
    else some { lexer with place := .quoted (c :: text) }
  | .escaped text =>
    if c = 'u' then some { lexer with place := .coded text none [] }
    else (escape? c).map fun value => { lexer with place := .quoted (value :: text) }
  | .coded text lead digits =>
    match Text.hexValue? c with
    | none => none
    | some digit =>
      match digits with
      | [third, second, first] =>
        (afterUnit? text lead (((first * 16 + second) * 16 + third) * 16 + digit)).map
          fun place => { lexer with place }
      | _ => some { lexer with place := .coded text lead (digit :: digits) }
  | .paired text lead =>
    if c = '\\' then some { lexer with place := .pairEscaped text lead } else none
  | .pairEscaped text lead =>
    if c = 'u' then some { lexer with place := .coded text (some lead) [] } else none

/-- The tokens of a text that ends where the reader stands. -/
def finish? (lexer : Lexer) : Option (List Token) :=
  match lexer.place with
  | .between => some lexer.tokens.reverse
  | .number digits => (withNumber? lexer.tokens digits).map List.reverse
  | _ => none

/-- Reads a text as far as it can be read. -/
def advance (lexer : Lexer) : List Char → Lexer
  | [] => lexer
  | c :: rest =>
    match lexer.step c with
    | some next => next.advance rest
    | none => lexer

/-- The tokens that are complete where the reader stands. -/
def complete (lexer : Lexer) : List Token :=
  lexer.finish?.getD lexer.tokens.reverse

end Lexer

/-- The tokens of a text. -/
def tokens? (text : List Char) : Option (List Token) :=
  (text.foldlM Lexer.step ⟨.between, []⟩).bind Lexer.finish?

/-- The tokens at the front of a text, up to what cannot be read. -/
def frontTokens (text : List Char) : List Token :=
  (Lexer.advance ⟨.between, []⟩ text).complete

end Phrasebook.Json
