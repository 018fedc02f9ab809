import Phrasebook.Inspection.CommandLine
import Phrasebook.Json.Writing
import Phrasebook.Settings.Plan

/-! # Inspecting catalogues

The inspection program loads the catalogues that its command line and its settings
name and shows an entry, the paths of a locale, or a report of the coverage
(`Phrasebook.Inspection.run`).
-/

namespace Phrasebook

/-- The report of a coverage as a JSON value. -/
def Coverage.toJson (coverage : Coverage) : Json.Value :=
  let texts (paths : List String) : Json.Value := .array (paths.map .text)
  .object
    [("default_locale", match coverage.fallback with
        | some locale => .text locale.canonical
        | none => .null),
      ("total_paths", .number coverage.totalPaths),
      ("locales", .array (coverage.locales.map fun row =>
        .object
          [("locale", .text row.locale.canonical), ("present", .number row.present),
            ("fallback_only", texts row.fallbackOnly), ("missing", texts row.missing)]))]

namespace Inspection

/-- Why an inspection fails: the library refuses it, no folder is named, or its
output cannot be written, inside a report or elsewhere. -/
inductive Failure
  | error (cause : Error)
  | missingFolder
  | report
  | output

/-- The wording of a failure. -/
def Failure.message : Failure → String
  | .error cause => cause.message
  | .missingFolder =>
    "no catalogue directory; pass --dir or set catalog_dir in the settings"
  | .report => "failed to serialise JSON output"
  | .output => "failed to write output"

/-- What the program depends on besides its command line: the variables of the
environment, the contents of files, and the folders. -/
structure Surroundings where
  environment : List (String × String)
  content? : String → Option (Option String)
  openFolder? : String → Option File.Folder

/-- The output of the program: a JSON report and the text behind it. -/
structure Output where
  report : String := ""
  text : String := ""

/-- The output as one text, for a sink that takes no more than `limit` bytes. -/
def Output.within (output : Output) (limit : Option Nat) : Except Failure String :=
  let full := output.report ++ output.text
  match limit with
  | none => .ok full
  | some limit =>
    if limit < output.report.utf8ByteSize then .error .report
    else if limit < full.utf8ByteSize then .error .output
    else .ok full

/-- Lines of text, each with its end. -/
def Output.ofLines (lines : List String) : Output where
  text := String.join (lines.map (· ++ "\n"))

/-- The settings with what the command line names in place of their values. -/
def settings (line : CommandLine) (around : Surroundings) : Except Failure Settings := do
  let file := line.config.bind around.content?
  let loaded ← (Settings.load file around.environment).mapError .error
  let folder := line.folder <|> loaded.folder
  let fallback ← match line.fallback with
    | some raw => (Locale.parse raw).mapError .error
    | none => pure loaded.fallback
  if folder.isNone then throw .missingFolder
  let active ← match line.command.locale with
    | some raw => do
      let locale ← (Locale.parse raw).mapError .error
      pure (some locale)
    | none => pure loaded.active
  pure { loaded with fallback, folder, active }

/-- The lines that show an entry. -/
def entryLines : Rendered → List String
  | .scalar text => [text]
  | .list texts => texts
  | .indexed entries => entries.map fun (key, text) => key.text ++ ": " ++ text

/-- The lines that show the coverage of one locale. -/
def coverageLines (coverage : Coverage) (row : LocaleCoverage) : List String :=
  let mark := if coverage.fallback = some row.locale then " (default)" else ""
  (row.locale.canonical ++ mark ++ ": " ++ toString row.present ++ "/" ++
      toString coverage.totalPaths ++ " present, " ++ toString row.fallbackOnly.length ++
      " fallback-only, " ++ toString row.missing.length ++ " missing") ::
    row.fallbackOnly.map ("  fallback " ++ ·) ++ row.missing.map ("  missing  " ++ ·)

/-- The output of a command. Of several parameters of one name the last counts. -/
def output (translator : Translator) (command : Command) : Except Error Output :=
  match command with
  | .resolve path _ params index => do
    let arguments : Arguments := params.reverse.map fun (name, value) => (name, .text value)
    match index with
    | some index => do
      let text ← translator.textAt path index arguments
      pure (.ofLines [text])
    | none => do
      let entry ← translator.entry none path arguments
      pure (.ofLines (entryLines entry))
  | .keys _ => do
    let locale ← translator.current
    let catalogue ← translator.registry.get locale
    pure (.ofLines catalogue.entryPaths)
  | .coverage asJson =>
    let coverage := translator.registry.coverage
    if asJson then .ok { report := coverage.toJson.pretty 0, text := "\n" }
    else .ok (.ofLines (coverage.locales.flatMap (coverageLines coverage)))

/-- The output of the program. -/
def run (line : CommandLine) (around : Surroundings) : Except Failure Output := do
  let settings ← settings line around
  let translator ← (settings.translator around.openFolder?).mapError .error
  (output translator line.command).mapError .error

end Inspection

end Phrasebook
