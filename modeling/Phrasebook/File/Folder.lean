import Phrasebook.File.Disk
import Phrasebook.File.Format

/-! # Loading catalogue files

One catalogue file is loaded by its path (`Phrasebook.File.load`), and a folder is
loaded file by file in the order of the names (`Phrasebook.File.loadFolder`). The names
are texts and all of them are known (`Phrasebook.File.Folder`), so no failure comes from
listing the folder.
-/

namespace Phrasebook.File

/-- The locale and the catalogue of the file that a path names. The folder of the
file is opened first, then the name is looked at, and the file is read last. -/
def load (disk : Disk) (path : String) : Except Error (Locale × Catalogue) := do
  let some name := lastName? path | throw (.file path .noFileName)
  let some folder := disk.parent? path | throw (.file path .unreadable)
  let some kind := classify? name | throw (.file path .unknownExtension)
  let (locale, format) ← kind
  let some text := folder.text? name | throw (.file path .unreadable)
  let catalogue ← format.parse path text
  pure (locale, catalogue)

/-- A catalogue file in a folder: its name, what the name says, and its text. -/
structure Candidate where
  name : String
  kind : Except Error (Locale × Format)
  text : Option String

/-- The catalogue file that an entry of a folder is, if it is one. -/
def candidate? (entry : String × Tree) : Option Candidate :=
  match entry.2 with
  | .file text => (classify? entry.1).map fun kind => { name := entry.1, kind, text }
  | .folder _ => none

/-- The catalogue files of a folder, in the order of their names. -/
def candidates (folder : Folder) : List Candidate :=
  Ordered.ofList Candidate.name (folder.filterMap candidate?)

/-- Loads catalogue files one after another, behind those that have been loaded. A
locale must not come twice. -/
def loadAll (path : String) (loaded : List (Locale × Catalogue)) :
    List Candidate → Except Error (List (Locale × Catalogue))
  | [] => .ok loaded
  | candidate :: rest => do
    let here := join path candidate.name
    let (locale, format) ← candidate.kind
    if loaded.any fun earlier => earlier.1 == locale then
      throw (.file here (.repeatedLocale locale))
    let some text := candidate.text | throw (.file here .unreadable)
    let catalogue ← format.parse here text
    loadAll path (loaded ++ [(locale, catalogue)]) rest

/-- The locales and the catalogues of all catalogue files in a folder. The folder is
missing when the path names none. -/
def loadFolder (path : String) (folder : Option Folder) :
    Except Error (List (Locale × Catalogue)) :=
  match folder with
  | none => .error (.file path .unreadable)
  | some folder => loadAll path [] (candidates folder)

end Phrasebook.File
