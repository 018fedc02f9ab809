import Phrasebook.Decimal.Double

/-! # Arguments of templates

A value that takes the place of an identifier in a template
(`Phrasebook.Argument`). Text is not trusted: where templates hold markup, its
markup characters are written as entities (`Phrasebook.Escaping.apply`).
-/

namespace Phrasebook

/-- How untrusted text is written into a template. -/
inductive Escaping
  | markup
  | verbatim
deriving DecidableEq, Repr

/-- A value for a template. The text of `markup` is trusted. -/
inductive Argument
  | text (value : String)
  | integer (value : Int)
  | float (value : Decimal.Double)
  | markup (value : String)
deriving DecidableEq, Repr

/-- Values for templates by identifier; the first of a repeated identifier
counts. -/
abbrev Arguments := List (String × Argument)

/-- The entity of a markup character; any other character is itself. -/
def Escaping.entity (c : Char) : List Char :=
  match c with
  | '&' => ['&', 'a', 'm', 'p', ';']
  | '<' => ['&', 'l', 't', ';']
  | '>' => ['&', 'g', 't', ';']
  | '"' => ['&', 'q', 'u', 'o', 't', ';']
  | '\'' => ['&', '#', '3', '9', ';']
  | c => [c]

/-- Untrusted text as it is written into a template. -/
def Escaping.apply (escaping : Escaping) (text : List Char) : List Char :=
  match escaping with
  | .markup => text.flatMap Escaping.entity
  | .verbatim => text

namespace Argument

/-- The text of a value, never escaped. -/
def display (argument : Argument) : String :=
  match argument with
  | .text value | .markup value => value
  | .integer value => toString value
  | .float value => value.text

/-- A value as it is written into a template: untrusted text is escaped, trusted
markup and numbers are not. -/
def written (escaping : Escaping) : Argument → List Char
  | .text value => escaping.apply value.toList
  | argument => argument.display.toList

end Argument

end Phrasebook
