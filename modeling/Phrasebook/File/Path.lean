/-! # File paths as text

The parts of a path between its slashes (`Phrasebook.File.parts`), its last name
(`Phrasebook.File.lastName?`), the stem and the extension of a name
(`Phrasebook.File.stem`, `Phrasebook.File.extension?`), and the places where a path is
looked for (`Phrasebook.File.places`).
-/

namespace Phrasebook.File

/-- The parts of a path that lead somewhere: those that are neither empty nor a
single dot. -/
def parts (path : String) : List String :=
  ((path.toList.splitOn '/').filter fun part => part ≠ [] ∧ part ≠ ['.']).map String.ofList

/-- Whether a path leads from the root of all folders. -/
def isAbsolute (path : String) : Bool :=
  path.toList.head? == some '/'

/-- The name that a path ends in, unless it ends at a folder above. -/
def lastName? (path : String) : Option String :=
  match (parts path).getLast? with
  | some ".." => none
  | last => last

/-- The name behind the last slash of a path, if a file may have that name. -/
def fileName? (path : String) : Option String :=
  let name := (path.toList.splitOn '/').getLast?.getD []
  if name = [] ∨ name = ['.'] ∨ name = ['.', '.'] then none else some (String.ofList name)

/-- A name cut before its last dot. A dot at the front does not count. -/
def splitName (name : String) : String × Option String :=
  let letters := name.toList.reverse
  let after := letters.takeWhile (· != '.')
  match letters.dropWhile (· != '.') with
  | _ :: before@(_ :: _) =>
    if name = ".." then (name, none)
    else (String.ofList before.reverse, some (String.ofList after.reverse))
  | _ => (name, none)

/-- A name without its extension. -/
def stem (name : String) : String :=
  (splitName name).1

/-- The text behind the last dot of a name. -/
def extension? (name : String) : Option String :=
  (splitName name).2

/-- The path of a name in a folder. -/
def join (folder name : String) : String :=
  if folder.isEmpty || folder.toList.getLast? == some '/' then folder ++ name
  else folder ++ "/" ++ name

/-- A path as it is seen from a working folder. -/
def absolute (working path : String) : String :=
  if isAbsolute path then path else join working path

/-- The absolute path of parts that are listed from the last one. -/
def ofReversed (parts : List String) : String :=
  "/" ++ "/".intercalate parts.reverse

/-- The folder of parts that are listed from the last one, and all folders around it,
innermost first. -/
def enclosing : List String → List String
  | [] => [ofReversed []]
  | part :: rest => ofReversed (part :: rest) :: enclosing rest

/-- The places where a file of a path is looked for, in their order: a relative path
is looked for in the working folder and in the folders around it. -/
def places (working path : String) : List String :=
  if isAbsolute path then [path]
  else (enclosing (parts working).reverse).map fun folder => join folder path

end Phrasebook.File
