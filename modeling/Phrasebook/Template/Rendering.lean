import Phrasebook.Error
import Phrasebook.Template.Argument
import Phrasebook.Template.Token

/-! # Rendering templates

Rendering copies the literal characters of a template and writes the value of each
placeholder in its place (`Phrasebook.Template.render`). The first placeholder
without a value is the cause of a failure.
-/

namespace Phrasebook.Template

/-- What stands for one token in the rendered text. -/
def renderToken (arguments : Arguments) (escaping : Escaping) :
    Token → Except Error (List Char)
  | .literal c => .ok [c]
  | .placeholder name =>
    match arguments.lookup name with
    | some argument => .ok (argument.written escaping)
    | none => .error (.missingParam name)

/-- The text of a template with the values of its placeholders. -/
def render (template : Template) (arguments : Arguments) (escaping : Escaping) :
    Except Error String := do
  let pieces ← template.tokens.mapM (renderToken arguments escaping)
  pure (String.ofList pieces.flatten)

/-- The texts of several templates, each rendered on its own. -/
def renderAll (templates : List Template) (arguments : Arguments) (escaping : Escaping) :
    Except Error (List String) :=
  templates.mapM fun template => template.render arguments escaping

end Phrasebook.Template
