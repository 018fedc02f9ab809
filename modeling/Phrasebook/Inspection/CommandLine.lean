import Phrasebook.Inspection.Arguments
import Phrasebook.Text.Numeral

/-! # The command line

The options and commands of the inspection program
(`Phrasebook.Inspection.CommandLine`) and how its command line is read
(`Phrasebook.Inspection.CommandLine.parse`).
-/

namespace Phrasebook.Inspection

/-- What the program shows: the entry at a path, the paths of a locale, or which
entries each locale has. -/
inductive Command
  | resolve (path : String) (locale : Option String) (params : List (String × String))
      (index : Option Position)
  | keys (locale : Option String)
  | coverage (asJson : Bool)

/-- The locale that a command names. -/
def Command.locale : Command → Option String
  | .resolve _ locale _ _ => locale
  | .keys locale => locale
  | .coverage _ => none

/-- A command line: the folder, the fallback locale and the settings file that it
names, and its command. -/
structure CommandLine where
  folder : Option String
  fallback : Option String
  config : Option String
  verbose : Bool
  command : Command

namespace CommandLine

/-- The position that the value of an option writes; a plus sign may stand before
its digits. -/
def index? (value : String) : Option Position :=
  match value.toList with
  | '+' :: digits => Position.ofNumeral? digits
  | digits => Position.ofNumeral? digits

/-- A parameter of a template: a name that is not empty, and a value behind the first
equals sign. -/
def param? (value : String) : Option (String × String) :=
  let name := value.toList.takeWhile (· != '=')
  match value.toList.dropWhile (· != '=') with
  | _ :: text => if name.isEmpty then none else some (String.ofList name, String.ofList text)
  | [] => none

/-- The option that asks for help. -/
def helpOption : Switch := { long := "help", letter := some 'h', role := .help }

/-- The option that names a locale. -/
def localeOption : Switch := { long := "locale", role := .single }

/-- The words before the command. -/
def program : Grammar where
  options :=
    [{ long := "dir", role := .single }, { long := "default", role := .single },
      { long := "config", role := .single },
      { long := "verbose", letter := some 'v', role := .flag }, helpOption,
      { long := "version", letter := some 'V', role := .version }]
  commands := ["resolve", "keys", "coverage", "help"]

/-- The words behind the command that shows an entry. -/
def resolveGrammar : Grammar where
  options :=
    [localeOption,
      { long := "param", role := .repeated, accepts := fun value => (param? value).isSome },
      { long := "index", role := .single, accepts := fun value => (index? value).isSome },
      helpOption]
  positionals := 1

/-- The words behind the command that lists paths. -/
def keysGrammar : Grammar where
  options := [localeOption, helpOption]

/-- The words behind the command that reports coverage. -/
def coverageGrammar : Grammar where
  options := [{ long := "json", role := .flag }, helpOption]

/-- Reads all words of a level that has no commands. -/
def readAll (grammar : Grammar) (words : List String) : Except Usage Reading := do
  let (reading, _) ← scan grammar {} words
  reading.resolve

/-- The words behind the command for help name commands. -/
def help : List String → Usage
  | [] => .displayHelp
  | [word] => if program.commands.contains word then .displayHelp else .invalidSubcommand
  | _ => .invalidSubcommand

/-- The command of a name and the words behind it. -/
def readCommand (name : String) (words : List String) : Except Usage Command := do
  if name = "resolve" then
    let reading ← readAll resolveGrammar words
    let some path := reading.positionals.head? | throw .missingRequiredArgument
    let params := reading.found.filterMap fun (long, value) =>
      if long = "param" then param? value else none
    pure (.resolve path (reading.last? "locale") params ((reading.last? "index").bind index?))
  else if name = "keys" then
    let reading ← readAll keysGrammar words
    pure (.keys (reading.last? "locale"))
  else if name = "coverage" then
    let reading ← readAll coverageGrammar words
    pure (.coverage (reading.has "json"))
  else throw (help words)

/-- The command line that the words behind the name of the program write. The
command is read before the last option in front of it is checked. -/
def parse (words : List String) : Except Usage CommandLine := do
  let (before, command) ← scan program {} words
  match command with
  | none =>
    let reading ← before.resolve
    if reading.found.isEmpty then throw .displayHelpOnMissing else throw .missingSubcommand
  | some (name, words) =>
    let command ← readCommand name words
    let reading ← before.resolve
    pure
      { folder := reading.last? "dir"
        fallback := reading.last? "default"
        config := reading.last? "config"
        verbose := reading.has "verbose"
        command }

end CommandLine

end Phrasebook.Inspection
