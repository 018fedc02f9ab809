import Phrasebook.Entry

/-! # Tokens of templates

A template is read once from left to right as literal characters and placeholders
(`Phrasebook.Template.tokens`). An identifier directly between two braces is a
placeholder; every other brace is a literal character.
-/

namespace Phrasebook.Template

/-- A piece of a template. -/
inductive Token
  | literal (c : Char)
  | placeholder (name : String)
deriving DecidableEq, Repr

/-- The characters that an identifier may begin with. -/
def isIdentifierStart (c : Char) : Bool :=
  c.isAlpha || c == '_'

/-- The characters that an identifier may hold. -/
def isIdentifierChar (c : Char) : Bool :=
  c.isAlphanum || c == '_'

/-- Whether a text is an identifier: letters, digits and underscores, not
beginning with a digit. -/
def isIdentifier (text : List Char) : Bool :=
  match text with
  | [] => false
  | first :: rest => isIdentifierStart first && rest.all isIdentifierChar

/-- The identifier before the next closing brace, with the text behind the brace,
when nothing else stands before it. -/
def placeholder? (text : List Char) : Option (List Char × List Char) :=
  match text.dropWhile isIdentifierChar with
  | '\x7d' :: after =>
    if isIdentifier (text.takeWhile isIdentifierChar) then
      some (text.takeWhile isIdentifierChar, after)
    else none
  | _ => none

theorem eq_of_placeholder? {text name after : List Char}
    (found : placeholder? text = some (name, after)) :
    text = name ++ '\x7d' :: after ∧ isIdentifier name = true := by
  unfold placeholder? at found
  split at found
  · next rest shape =>
    split at found
    · next identifier =>
      obtain ⟨rfl, rfl⟩ := Prod.mk.inj (Option.some.inj found)
      refine ⟨?_, identifier⟩
      have parts := List.takeWhile_append_dropWhile (p := isIdentifierChar) (l := text)
      rw [shape] at parts
      exact parts.symm
    · cases found
  · cases found

/-- The tokens of a text. -/
def scan : List Char → List Token
  | [] => []
  | c :: rest =>
    if c = '\x7b' then
      match _found : placeholder? rest with
      | some (name, after) => .placeholder (String.ofList name) :: scan after
      | none => .literal c :: scan rest
    else .literal c :: scan rest
termination_by text => text.length
decreasing_by
  · have shape := (eq_of_placeholder? _found).1
    simp only [shape, List.length_cons, List.length_append]
    omega
  · simp
  · simp

/-- The tokens of a template. -/
def tokens (template : Template) : List Token :=
  scan template.text.toList

/-- The identifiers that a template holds, each at its first place. -/
def placeholders (template : Template) : List String :=
  (template.tokens.filterMap fun token =>
    match token with
    | .placeholder name => some name
    | .literal _ => none).eraseDups

end Phrasebook.Template
