import Phrasebook.File.Folder
import Phrasebook.Session.Basic
import Phrasebook.Settings.Basic

/-! # Translators from settings

Settings make a plan for a translator: all catalogue files of their folder, then
their locales (`Phrasebook.Settings.plan`).
-/

namespace Phrasebook.Settings

/-- The plan of a translator that starts with the settings. Its failed look-ups are
not reported. -/
def plan (settings : Settings) (openFolder? : String → Option File.Folder) :
    Except Error Session.Plan := do
  let catalogues ← match settings.folder with
    | none => pure []
    | some path => File.loadFolder path (openFolder? path)
  pure
    { catalogues
      fallback := some settings.fallback
      active := settings.active
      escaping := settings.escaping
      reports := false }

/-- The translator that starts with the settings. -/
def translator (settings : Settings) (openFolder? : String → Option File.Folder) :
    Except Error Translator := do
  let plan ← settings.plan openFolder?
  let (registry, result) := plan.apply .empty
  result
  pure { registry, active := plan.active, escaping := plan.escaping }

end Phrasebook.Settings
