import Phrasebook.Inspection.Run

/-! # The inspection program

The program reads its command line, the settings file, the environment and the
folder of the catalogue files, and prints what `Phrasebook.Inspection.run` shows.
-/

namespace Phrasebook.Inspection

/-- How the program is called. -/
def usageText : String :=
  "Usage: phrasebook [--dir <path>] [--default <tag>] [--config <path>] [-v] <command>\n" ++
  "\n" ++
  "Commands:\n" ++
  "  resolve <path> [--locale <tag>] [--param <name=value>]... [--index <N>]\n" ++
  "  keys [--locale <tag>]\n" ++
  "  coverage [--json]\n"

/-- The variables of the environment that set a field. -/
def readEnvironment : IO (List (String × String)) := do
  let values ← Settings.fieldNames.mapM fun field => do
    let name := Settings.variableStart ++ field.map Char.toUpper
    let value ← IO.getEnv name
    pure (value.map fun value => (name, value))
  pure (values.filterMap id)

/-- The content of the file at one place: its text, if its bytes are text. -/
def readContent (place : String) : IO (Option (Option String)) := do
  try
    let bytes ← IO.FS.readBinFile place
    pure (some (String.fromUTF8? bytes))
  catch _ => pure none

/-- The content of the file that a path names, at the first place that has one. -/
def findContent (path : String) : IO (Option (Option String)) := do
  let working ← IO.currentDir
  (File.places working.toString path).findSomeM? readContent

/-- The folder at a path with the files in it. -/
def readFolder (path : String) : IO (Option File.Folder) := do
  if path.isEmpty then pure none
  else
    try
      let entries ← ((← IO.currentDir) / path).readDir
      let files ← entries.toList.mapM fun entry => do
        let details ← entry.path.symlinkMetadata
        match details.type with
        | .file => do
          let content ← readContent entry.path.toString
          pure (entry.fileName, File.Tree.file (content.bind id))
        | _ => pure (entry.fileName, File.Tree.folder [])
      pure (some files)
    catch _ => pure none

/-- What the program depends on besides its command line. Of all files it reads the
settings file, and then the files of the folder that the settings name. -/
def readSurroundings (line : CommandLine) : IO Surroundings := do
  let environment ← readEnvironment
  let content ← match line.config with
    | none => pure none
    | some path => findContent path
  let before : Surroundings :=
    { environment, content? := fun _ => content, openFolder? := fun _ => none }
  match (settings line before).toOption.bind Settings.folder with
  | none => pure before
  | some path => do
    let folder ← readFolder path
    pure { before with openFolder? := fun _ => folder }

/-- Answers a command line that yields no command; the answer is the exit code. -/
def report (usage : Usage) : IO UInt32 := do
  match usage with
  | .displayHelp =>
    IO.print usageText
    pure 0
  | .displayVersion =>
    IO.println "phrasebook 0.3.0"
    pure 0
  | .displayHelpOnMissing =>
    IO.eprint usageText
    pure 2
  | _ =>
    IO.eprint ("error: " ++ usage.name ++ "\n\n" ++ usageText)
    pure 2

end Phrasebook.Inspection

open Phrasebook.Inspection in
/-- Runs the program on the words behind its name; the answer is the exit code. -/
def main (words : List String) : IO UInt32 := do
  match CommandLine.parse words with
  | .error usage => report usage
  | .ok line =>
    let around ← readSurroundings line
    match (run line around).bind fun output => output.within none with
    | .ok text =>
      IO.print text
      pure 0
    | .error failure =>
      IO.eprintln ("error: " ++ failure.message)
      pure 1
