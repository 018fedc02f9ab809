import Phrasebook.File.Path

/-! # The content of a disk

A disk is a tree of folders and files, and one of the folders is the working folder
(`Phrasebook.File.Disk`). A path leads to a folder (`Phrasebook.File.Disk.open?`) or to
the content of a file (`Phrasebook.File.Disk.content?`).
-/

namespace Phrasebook.File

/-- A file with its text, which is missing when its bytes are no text, or a folder
with the names in it. Names are texts; an entry whose name cannot be decoded lies
outside of the description. -/
inductive Tree
  | file (text : Option String)
  | folder (entries : List (String × Tree))

/-- The names in a folder and what they name, in any order. Names are texts and the list
is complete: it lies outside of the description that the operating system fails to list
an entry or to tell what it is, or that a name cannot be decoded. -/
abbrev Folder := List (String × Tree)

namespace Folder

/-- Goes from a folder along the parts of a path. The folders around the current one
come innermost first; what is around the outermost one is that folder itself. -/
def walk? (outer : List Folder) (current : Folder) : List String → Option Folder
  | [] => some current
  | ".." :: rest =>
    match outer with
    | [] => walk? [] current rest
    | around :: outer => walk? outer around rest
  | name :: rest =>
    match current.lookup name with
    | some (.folder inner) => walk? (current :: outer) inner rest
    | _ => none

/-- The content of a file in a folder: its text, if its bytes are text. -/
def content? (folder : Folder) (name : String) : Option (Option String) :=
  match folder.lookup name with
  | some (.file text) => some text
  | _ => none

/-- The text of a file in a folder. -/
def text? (folder : Folder) (name : String) : Option String :=
  (folder.content? name).bind id

end Folder

/-- A tree of folders and files, with the path of the working folder. -/
structure Disk where
  root : Folder
  working : String

namespace Disk

/-- The parts of a path, from the root on. -/
def partsOf (disk : Disk) (path : String) : List String :=
  parts (absolute disk.working path)

/-- The folder that a path names. -/
def open? (disk : Disk) (path : String) : Option Folder :=
  if path.isEmpty then none else Folder.walk? [] disk.root (disk.partsOf path)

/-- The folder around what a path names. -/
def parent? (disk : Disk) (path : String) : Option Folder :=
  Folder.walk? [] disk.root (disk.partsOf path).dropLast

/-- The content of the file at one place. A place with a slash or a dot behind the name
names no file. -/
def contentAt? (disk : Disk) (place : String) : Option (Option String) := do
  let name ← fileName? place
  let folder ← disk.parent? place
  folder.content? name

/-- The content of the file that a path names, at the first place that has one. -/
def content? (disk : Disk) (path : String) : Option (Option String) :=
  (places disk.working path).findSome? disk.contentAt?

end Disk

end Phrasebook.File
