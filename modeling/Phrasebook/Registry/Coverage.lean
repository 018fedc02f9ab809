import Phrasebook.Registry.Basic

/-! # Coverage

Which entries each locale of a registry has of its own, which it has from the
fallback alone, and which it lacks (`Phrasebook.Registry.coverage`). Indexed maps
are counted key by key, because a look-up falls back for each key on its own;
scalars and lists count as one.
-/

namespace Phrasebook

/-- The paths of one locale against the paths of all locales. -/
structure LocaleCoverage where
  locale : Locale
  present : Nat
  fallbackOnly : List String
  missing : List String
deriving DecidableEq

/-- Whether the locale has all paths of its own. -/
def LocaleCoverage.isComplete (coverage : LocaleCoverage) : Bool :=
  coverage.fallbackOnly.isEmpty && coverage.missing.isEmpty

/-- The coverage of every registered locale, in increasing order of the locales. -/
structure Coverage where
  fallback : Option Locale
  totalPaths : Nat
  locales : List LocaleCoverage
deriving DecidableEq

/-- The paths that an entry counts as. -/
def Entry.coveragePaths (place : String) : Entry → List String
  | .scalar _ | .list _ => [place]
  | .indexed map => map.entries.map fun (key, _) => place ++ "." ++ key.text

namespace Node

mutual

/-- The paths that the entries at and below a place count as. -/
def coveragePaths (place : String) : Node → List String
  | .entry found => found.coveragePaths place
  | .branch children => coveragePathsBelow place children

/-- The paths that the entries below a namespace count as. -/
def coveragePathsBelow (place : String) : List (String × Node) → List String
  | [] => []
  | (name, node) :: rest =>
    coveragePaths (Address.under place name) node ++ coveragePathsBelow place rest

end

end Node

/-- The paths that the entries of a catalogue count as, in increasing order, each
once. -/
def Catalogue.coveragePaths (catalogue : Catalogue) : List String :=
  Ordered.ofList id (Node.coveragePathsBelow "" catalogue.root)

namespace Registry

/-- The paths of all registered catalogues, in increasing order, each once. -/
def coveragePaths (registry : Registry) : List String :=
  Ordered.ofList id (registry.catalogues.flatMap fun (_, catalogue) => catalogue.coveragePaths)

/-- The paths of the fallback's catalogue, if a fallback is declared. -/
def fallbackPaths (registry : Registry) : List String :=
  match registry.fallback.bind registry.get? with
  | some catalogue => catalogue.coveragePaths
  | none => []

/-- The coverage of every registered locale. -/
def coverage (registry : Registry) : Coverage where
  fallback := registry.fallback
  totalPaths := registry.coveragePaths.length
  locales := registry.catalogues.map fun (locale, catalogue) =>
    let own := catalogue.coveragePaths
    let lacking := registry.coveragePaths.filter fun path => !own.contains path
    { locale
      present := own.length
      fallbackOnly := lacking.filter fun path => registry.fallbackPaths.contains path
      missing := lacking.filter fun path => !registry.fallbackPaths.contains path }

end Registry

end Phrasebook
