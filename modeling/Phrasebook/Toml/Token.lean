import Phrasebook.Text.Numeral
import Phrasebook.Toml.Dialect

/-! # Tokens of TOML

A text is read character by character into tokens (`Phrasebook.Toml.tokens?`).
White space and line ends are tokens, because they matter beside unquoted values
and at the ends of lines; comments are not.
-/

namespace Phrasebook.Toml

/-- The characters that are a token by themselves. -/
inductive Mark
  | equals
  | dot
  | comma
  | openBracket
  | closeBracket
  | openBrace
  | closeBrace
deriving DecidableEq, Repr

/-- A token. A string knows whether it may extend over several lines. -/
inductive Token
  | mark (mark : Mark)
  | space (text : List Char)
  | lineEnd
  | word (text : List Char)
  | quoted (text : String) (multiline : Bool)
deriving DecidableEq

/-- The two kinds of quotes: strings in double quotes have escapes, strings in
single quotes have none. -/
inductive Lexer.Quote
  | basic
  | literal
deriving DecidableEq

/-- The quote character of a kind. -/
def Lexer.Quote.char : Lexer.Quote → Char
  | .basic => '"'
  | .literal => '\''

/-- Where the reader of tokens stands; the characters read so far come latest
first. -/
inductive Lexer.Place
  | between
  | carriageReturn
  | comment
  | space (text : List Char)
  | word (text : List Char)
  | firstQuote (quote : Lexer.Quote)
  | secondQuote (quote : Lexer.Quote)
  | single (quote : Lexer.Quote) (text : List Char)
  | opening (quote : Lexer.Quote)
  | openingReturn (quote : Lexer.Quote)
  | multi (quote : Lexer.Quote) (text : List Char)
  | multiReturn (quote : Lexer.Quote) (text : List Char)
  | multiQuotes (quote : Lexer.Quote) (text : List Char) (count : Nat)
  | escaped (multiline : Bool) (text : List Char)
  | coded (multiline : Bool) (text : List Char) (missing : Nat) (value : Nat)
  | lineBreak (text : List Char)
  | lineBreakReturn (text : List Char)
  | indent (text : List Char)
deriving DecidableEq

/-- The reader of tokens: where it stands, and the tokens so far, latest first. -/
structure Lexer where
  place : Lexer.Place
  tokens : List Token

namespace Lexer

/-- The characters of bare keys, numbers, dates and times. -/
def isWordChar (c : Char) : Bool :=
  c.isAlphanum || c == '_' || c == '-' || c == '+' || c == ':'

/-- The characters that may stand in comments and strings: all but the control
characters other than tab. -/
def isText (c : Char) : Bool :=
  c == '\t' || (0x20 ≤ c.toNat && c.toNat != 0x7F)

/-- The mark that a character is. -/
def mark? (c : Char) : Option Mark :=
  match c with
  | '=' => some .equals
  | '.' => some .dot
  | ',' => some .comma
  | '[' => some .openBracket
  | ']' => some .closeBracket
  | '\x7b' => some .openBrace
  | '\x7d' => some .closeBrace
  | _ => none

/-- The character that an escape of one character writes. -/
def escape? (dialect : Dialect) (c : Char) : Option Char :=
  match c with
  | 'e' => if dialect.isExtended then some '\x1b' else none
  | '"' => some '"'
  | '\\' => some '\\'
  | 'b' => some '\x08'
  | 'f' => some '\x0c'
  | 'n' => some '\n'
  | 'r' => some '\r'
  | 't' => some '\t'
  | _ => none

/-- One step from between two tokens. -/
def stepBetween (tokens : List Token) (c : Char) : Option Lexer :=
  if c = ' ' ∨ c = '\t' then some ⟨.space [c], tokens⟩
  else if c = '\n' then some ⟨.between, .lineEnd :: tokens⟩
  else if c = '\r' then some ⟨.carriageReturn, tokens⟩
  else if c = '#' then some ⟨.comment, tokens⟩
  else if c = '"' then some ⟨.firstQuote .basic, tokens⟩
  else if c = '\'' then some ⟨.firstQuote .literal, tokens⟩
  else if isWordChar c then some ⟨.word [c], tokens⟩
  else (mark? c).map fun mark => ⟨.between, .mark mark :: tokens⟩

/-- The token of a string whose characters come latest first. -/
def string (text : List Char) (multiline : Bool) : Token :=
  .quoted (String.ofList text.reverse) multiline

/-- One step inside a string on one line. -/
def stepSingle (tokens : List Token) (quote : Quote) (text : List Char) (c : Char) :
    Option Lexer :=
  if c = quote.char then some ⟨.between, string text false :: tokens⟩
  else if quote = .basic ∧ c = '\\' then some ⟨.escaped false text, tokens⟩
  else if isText c then some ⟨.single quote (c :: text), tokens⟩
  else none

/-- One step inside a string over several lines. -/
def stepMulti (tokens : List Token) (quote : Quote) (text : List Char) (c : Char) :
    Option Lexer :=
  if c = quote.char then some ⟨.multiQuotes quote text 1, tokens⟩
  else if quote = .basic ∧ c = '\\' then some ⟨.escaped true text, tokens⟩
  else if c = '\r' then some ⟨.multiReturn quote text, tokens⟩
  else if c = '\n' ∨ isText c then some ⟨.multi quote (c :: text), tokens⟩
  else none

/-- How many hexadecimal digits an escape of a code point has behind its letter. -/
def codeLength? (dialect : Dialect) (c : Char) : Option Nat :=
  match c with
  | 'x' => if dialect.isExtended then some 2 else none
  | 'u' => some 4
  | 'U' => some 8
  | _ => none

/-- The place inside a basic string. -/
def inside (multiline : Bool) (text : List Char) : Place :=
  if multiline then .multi .basic text else .single .basic text

/-- One step behind the backslash of an escape. A backslash at the end of a line joins
the line to the next text. -/
def stepEscaped (dialect : Dialect) (tokens : List Token) (multiline : Bool)
    (text : List Char) (c : Char) : Option Lexer :=
  match codeLength? dialect c, escape? dialect c with
  | some length, _ => some ⟨.coded multiline text length 0, tokens⟩
  | none, some value => some ⟨inside multiline (value :: text), tokens⟩
  | none, none =>
    if !multiline then none
    else if c = ' ' ∨ c = '\t' then some ⟨.lineBreak text, tokens⟩
    else if c = '\n' then some ⟨.indent text, tokens⟩
    else if c = '\r' then some ⟨.lineBreakReturn text, tokens⟩
    else none

/-- One step of the reader. -/
def step (dialect : Dialect) (lexer : Lexer) (c : Char) : Option Lexer :=
  let tokens := lexer.tokens
  match lexer.place with
  | .between => stepBetween tokens c
  | .carriageReturn => if c = '\n' then some ⟨.between, .lineEnd :: tokens⟩ else none
  | .comment =>
    if c = '\n' then some ⟨.between, .lineEnd :: tokens⟩
    else if c = '\r' then some ⟨.carriageReturn, tokens⟩
    else if isText c then some lexer
    else none
  | .space text =>
    if c = ' ' ∨ c = '\t' then some ⟨.space (c :: text), tokens⟩
    else stepBetween (.space text.reverse :: tokens) c
  | .word text =>
    if isWordChar c then some ⟨.word (c :: text), tokens⟩
    else stepBetween (.word text.reverse :: tokens) c
  | .firstQuote quote =>
    if c = quote.char then some ⟨.secondQuote quote, tokens⟩ else stepSingle tokens quote [] c
  | .secondQuote quote =>
    if c = quote.char then some ⟨.opening quote, tokens⟩
    else stepBetween (string [] false :: tokens) c
  | .single quote text => stepSingle tokens quote text c
  | .opening quote =>
    if c = '\n' then some ⟨.multi quote [], tokens⟩
    else if c = '\r' then some ⟨.openingReturn quote, tokens⟩
    else stepMulti tokens quote [] c
  | .openingReturn quote => if c = '\n' then some ⟨.multi quote [], tokens⟩ else none
  | .multi quote text => stepMulti tokens quote text c
  | .multiReturn quote text =>
    if c = '\n' then
      some ⟨.multi quote (if dialect.keepsReturns then '\n' :: '\r' :: text else '\n' :: text),
        tokens⟩
    else none
  | .multiQuotes quote text count =>
    if c = quote.char then
      if count = 4 then
        some ⟨.between, string (quote.char :: quote.char :: text) true :: tokens⟩
      else some ⟨.multiQuotes quote text (count + 1), tokens⟩
    else if 3 ≤ count then
      stepBetween (string (List.replicate (count - 3) quote.char ++ text) true :: tokens) c
    else stepMulti tokens quote (List.replicate count quote.char ++ text) c
  | .escaped multiline text => stepEscaped dialect tokens multiline text c
  | .coded multiline text missing value =>
    match Text.hexValue? c with
    | none => none
    | some digit =>
      let value := value * 16 + digit
      if 1 < missing then some ⟨.coded multiline text (missing - 1) value, tokens⟩
      else if value.isValidChar then
        some ⟨inside multiline (Char.ofNat value :: text), tokens⟩
      else none
  | .lineBreak text =>
    if c = ' ' ∨ c = '\t' then some lexer
    else if c = '\n' then some ⟨.indent text, tokens⟩
    else if c = '\r' then some ⟨.lineBreakReturn text, tokens⟩
    else none
  | .lineBreakReturn text => if c = '\n' then some ⟨.indent text, tokens⟩ else none
  | .indent text =>
    if c = ' ' ∨ c = '\t' ∨ c = '\n' then some lexer
    else if c = '\r' then some ⟨.lineBreakReturn text, tokens⟩
    else stepMulti tokens .basic text c

/-- The tokens of a text that ends where the reader stands. -/
def finish? (lexer : Lexer) : Option (List Token) :=
  let tokens := lexer.tokens
  match lexer.place with
  | .between | .comment => some tokens.reverse
  | .space text => some (.space text.reverse :: tokens).reverse
  | .word text => some (.word text.reverse :: tokens).reverse
  | .secondQuote _ => some (string [] false :: tokens).reverse
  | .multiQuotes quote text count =>
    if 3 ≤ count then
      some (string (List.replicate (count - 3) quote.char ++ text) true :: tokens).reverse
    else none
  | _ => none

end Lexer

/-- A text without the byte order mark at its front. -/
def withoutMark : List Char → List Char
  | '\ufeff' :: text => text
  | text => text

/-- The tokens of a text. -/
def tokens? (dialect : Dialect) (text : List Char) : Option (List Token) :=
  ((withoutMark text).foldlM (Lexer.step dialect) ⟨.between, []⟩).bind Lexer.finish?

end Phrasebook.Toml
